import Precompiled.Proofs.Blob.Names
import Precompiled.Proofs.Library.Assembled

/-! Reading a loaded library. Each view follows one or two offsets into a
section of the blob; here every one of them is shown to lead to what the
assembler put there, and to stop where it ends. -/
namespace Precompiled.Blob.Draft

open NamePool Library Outcome

variable {draft : Draft} {library : Library} {code : CodeDraft} {codeId classId : Nat}
  {owner : ClassDraft} {name text descriptor : String} {index id : Nat} {options : LoadOptions}

/-! ## Places in sections -/

/-- Records of one width stand at multiples of it. -/
theorem holds_fixed {write : α → Bytes} (wide : ∀ item, (write item).length = width)
    {items : List α} {index : Nat} {item : α} (found : items[index]? = some item) :
    Holds (items.flatMap write) (index * width) (write item) := by
  induction items generalizing index with
  | nil => simp at found
  | cons first rest ih =>
    cases index with
    | zero =>
      obtain rfl : first = item := by simpa using found
      exact ⟨[], rest.flatMap write, by simp, by simp⟩
    | succ index =>
      rw [List.getElem?_cons_succ] at found
      obtain ⟨before, after, split, length⟩ := ih found
      refine ⟨write first ++ before, after, by simp [split], ?_⟩
      rw [List.length_append, wide, length, Nat.succ_mul, Nat.add_comm]

/-- No section reaches past the start of the name pool. -/
theorem part_length_le (draft : Draft) (part : Section) :
    (draft.sectionContent part).length ≤ draft.namesStart := by
  obtain ⟨symbol, member, named, kind⟩ := draft.part_symbol part
  have front := draft.symbolsStart_ge
  cases draft.leads member with
  | part other start behind holds same =>
    rw [same] at named
    obtain rfl := symbol_injective named
    have bound := holds.bound
    rw [namesStart]
    omega
  | record classId owner start behind known holds same =>
    rw [same] at kind
    cases kind

/-! ## Code -/

/-- One piece of code in its place. -/
def placedCode (draft : Draft) (codeId : Nat) (code : CodeDraft) : PlacedCode where
  draft := code
  codeId := codeId
  codeOffset := startOf draft.codeChunks codeId
  detailOffset := startOf (draft.detailsIn draft.pool) codeId
  metadataStart := ((draft.codes.map fun code => code.method.metadata.length).take codeId).sum

/-- The record of one piece of code. -/
def codeRecord (draft : Draft) (codeId : Nat) (code : CodeDraft) : CodeRecord :=
  recordIn draft.pool (draft.placedCode codeId code)

/-- The records of the given code ids. -/
def codeRecords (draft : Draft) (codeIds : List Nat) : List CodeRecord :=
  codeIds.filterMap fun codeId => draft.codes[codeId]?.map (draft.codeRecord codeId)

theorem placed_get (draft : Draft) (codeId : Nat) :
    (draft.placedIn draft.pool)[codeId]? = draft.codes[codeId]?.map (draft.placedCode codeId) := by
  rw [placedIn, placeCodes, List.getElem?_mapIdx]
  rcases found : draft.codes[codeId]? with _ | code
  · rfl
  · have inside := (List.getElem?_eq_some_iff.mp found).1
    have chunks := runningOffsets_pieces draft.codeChunks 0 codeId (by simpa [codeChunks] using inside)
    have details := runningOffsets_pieces (draft.detailsIn draft.pool) 0 codeId
      (by simpa [detailsIn] using inside)
    have starts := runningOffsets_get (draft.codes.map fun code => code.method.metadata.length) 0
      codeId (by simpa using inside)
    simp only [Option.map_some, placedCode, List.getD_eq_getElem?_getD, chunks, details, starts,
      Option.getD_some, Nat.zero_add]

theorem recordsIn_eq (draft : Draft) (codeIds : List Nat) :
    draft.recordsIn draft.pool codeIds = draft.codeRecords codeIds := by
  simp only [recordsIn, codeRecords, List.map_filterMap, placed_get, Option.map_map]
  rfl

theorem chunk_get (found : draft.codes[codeId]? = some code) :
    draft.codeChunks[codeId]? = some (draft.codeChunk codeId code) := by
  simp [codeChunks, found]

/-- No piece of code is empty, so there are no more pieces than bytes. -/
theorem codes_length_le (draft : Draft) :
    draft.codes.length ≤ (draft.sectionContent .code).length := by
  have count : draft.codes.length = draft.codeChunks.length := by simp [codeChunks]
  have filled : ∀ chunk ∈ draft.codeChunks, 0 < chunk.length := by
    intro chunk member
    obtain ⟨codeId, inside, rfl⟩ := List.mem_mapIdx.mp member
    simp [codeChunk, alignTo, word32, littleEndian]
  rw [count, sectionContent]
  generalize draft.codeChunks = chunks at filled
  induction chunks with
  | nil => simp
  | cons chunk rest ih =>
    have first := filled chunk (by simp)
    have others := ih fun other member => filled other (by simp [member])
    simp only [List.length_cons, List.flatten_cons, List.length_append]
    omega

theorem code_length_le (found : draft.codes[codeId]? = some code) :
    codeHeaderSize.toNat + code.method.codeSize.toNat ≤ (draft.sectionContent .code).length := by
  have bound := (holds_flatten (chunk_get found)).left.bound
  simp only [List.length_append, word32_length, List.length_replicate] at bound
  have header : codeHeaderSize.toNat = 4 := rfl
  rw [sectionContent]
  omega

theorem detail_get (found : draft.codes[codeId]? = some code) :
    (draft.detailsIn draft.pool)[codeId]? = some (detailIn draft.pool code).encode := by
  simp [detailsIn, found]

theorem reading_ok {outcome : Except DecodeError α} (read : outcome = .ok value) :
    library.reading outcome = .ok value := by
  rw [read]
  rfl

/-- Every piece of code begins with its id. -/
theorem codeIdAt_read (loaded : draft.Loaded library) (found : draft.codes[codeId]? = some code) :
    library.codeIdAt (startOf draft.codeChunks codeId) = .ok (Int32.ofNat codeId) := by
  have chunk := (holds_flatten (chunk_get found)).left
  have word : Holds library.contents.code (startOf draft.codeChunks codeId)
      (signed32 (Int32.ofNat codeId)) := by
    rw [loaded.part .code _ rfl]
    exact chunk.left
  exact reading_ok (word.runAt (Decoder.reads_int32 _))

/-! ## Groups of records -/

theorem ofNat_ne_noOffset (small : offset < 2 ^ 31) : Int32.ofNat offset ≠ noOffset := by
  intro same
  have value : (Int32.ofNat offset).toInt = offset := Int32.toInt_ofNat_of_lt small
  rw [same] at value
  have absent : noOffset.toInt = -1 := rfl
  omega

theorem groupOffsets_get {groups : List Bytes} {piece : Bytes}
    (found : groups[classId]? = some piece) : (groupOffsets groups).getD classId noOffset =
      if piece.isEmpty then noOffset else Int32.ofNat (startOf groups classId) := by
  have inside := (List.getElem?_eq_some_iff.mp found).1
  have start := runningOffsets_pieces groups 0 classId inside
  rw [Nat.zero_add] at start
  simp only [groupOffsets, List.getD_eq_getElem?_getD, List.getElem?_zipWith, start, found,
    Option.getD_some]

theorem group_isEmpty (items : List Bytes) : (group items).isEmpty = items.isEmpty := by
  cases items with
  | nil => rfl
  | cons item rest => simp [group, word32, littleEndian]

theorem reads_countedRecords (records : List CodeRecord) (few : records.length < 2 ^ 31) :
    Decoder.Reads countedRecords
      (word32 (UInt32.ofNat records.length) ++ records.flatMap CodeRecord.encode) records := by
  have value : (Int32.ofNat records.length).toInt = records.length := Int32.toInt_ofNat_of_lt few
  have nonneg : ¬Int32.ofNat records.length < 0 := by
    rw [Int32.lt_iff_toInt_lt, value]
    simp
  refine (Decoder.reads_int32 (Int32.ofNat records.length)).bind ?_
  rw [if_neg nonneg, value, Int.toNat_natCast]
  exact Decoder.reads_times records fun record _ => record.reads_encode

/-- The methods of a class as they are grouped in the blob. -/
theorem methodGroup_get (draft : Draft) (found : draft.classes[classId]? = some owner) :
    (draft.methodGroupsIn draft.pool)[classId]? =
      some (group ((draft.codeRecords owner.methods).map CodeRecord.encode)) := by
  simp [methodGroupsIn, found, recordsIn_eq]

theorem dependentGroup_get (draft : Draft) (found : draft.classes[classId]? = some owner) :
    draft.dependentGroups[classId]? = some (group (owner.dependents.map word32)) := by
  simp [dependentGroups, found]

/-- The record of a class. -/
def classRecordOf (draft : Draft) (classId : Nat) (owner : ClassDraft) : ClassRecord where
  gotIndex := Int32.ofNat owner.gotIndex
  classId := Int32.ofNat classId
  methodsOffset := if (draft.codeRecords owner.methods).isEmpty then noOffset
    else Int32.ofNat (startOf (draft.methodGroupsIn draft.pool) classId)
  dependentsOffset := if owner.dependents.isEmpty then noOffset
    else Int32.ofNat (startOf draft.dependentGroups classId)
  fingerprint := owner.fingerprint

theorem classRecord_get (draft : Draft) (found : draft.classes[classId]? = some owner) :
    draft.finalContents.classes[classId]? = some (draft.classRecordOf classId owner) := by
  simp only [finalContents, contentsIn, classRecords, List.getElem?_mapIdx, found, Option.map_some,
    classRecordOf, groupOffsets_get (draft.methodGroup_get found),
    groupOffsets_get (draft.dependentGroup_get found), group_isEmpty, List.isEmpty_map]

theorem holds_classRecord (draft : Draft) (found : draft.classes[classId]? = some owner) :
    Holds (draft.sectionContent .classes) (classId * classRecordSize)
      (draft.classRecordOf classId owner).encode :=
  holds_fixed ClassRecord.encode_length (draft.classRecord_get found)

theorem classRecord_read (loaded : draft.Loaded library)
    (found : draft.classes[classId]? = some owner) :
    library.classRecord classId = .ok (draft.classRecordOf classId owner) := by
  have holds := draft.holds_classRecord found
  rw [← loaded.part .classes _ rfl] at holds
  exact reading_ok (holds.runAt (draft.classRecordOf classId owner).reads_encode)

/-- The record of a class is found under the name of the class, unless another
class or a section has the same name. -/
theorem findClassRecord_read (names : draft.ClassNames)
    (distinct : (draft.classes.map ClassDraft.name).Nodup)
    (found : draft.classes[classId]? = some owner)
    (name : String) (id : Nat) (options : LoadOptions) :
    (draft.libraryNamed name id options).findClassRecord owner.name =
      .ok (some (draft.classRecordOf classId owner)) := by
  obtain ⟨symbol, member, named, -⟩ := draft.class_symbol (List.mem_of_getElem? found)
  have listed : (owner.name, exported symbol) ∈ draft.finalLayout.symbols.map fun symbol =>
      (symbol.name, exported symbol) := List.mem_map.mpr ⟨symbol, member, by rw [named]⟩
  obtain ⟨hit, led⟩ := findSymbol_of_mem listed
  obtain ⟨source, among, same⟩ := List.mem_map.mp (findSymbol_mem led)
  obtain ⟨called, rfl⟩ := Prod.mk.inj same
  cases draft.leads among with
  | part part start behind holds form =>
    rw [form] at called
    exact absurd called.symm (names.free owner (List.mem_of_getElem? found) part)
  | record other target start behind known holds form =>
    rw [form] at called led
    have place : (draft.classes.map ClassDraft.name)[other]? =
        (draft.classes.map ClassDraft.name)[classId]? := by
      simpa [known, found] using called
    have inside : other < (draft.classes.map ClassDraft.name).length := by
      simpa using (List.getElem?_eq_some_iff.mp known).1
    obtain rfl := (List.getElem?_inj inside distinct).mp place
    have record := (draft.holds_part holds behind).inside (draft.holds_classRecord found)
    have read := record.runAt (draft.classRecordOf other owner).reads_encode
    have symbol : (draft.libraryNamed name id options).symbol owner.name =
        some ⟨.classRecord, start + other * classRecordSize, classRecordSize⟩ := by
      simp only [Library.symbol, libraryNamed]
      exact led
    rw [findClassRecord, symbol]
    simp only [libraryNamed, read]
    rfl

theorem records_encode_length (records : List CodeRecord) :
    (records.map CodeRecord.encode).flatten.length = records.length * codeRecordSize := by
  simp [List.length_flatten, CodeRecord.encode_length, Function.comp_def, List.map_const']

/-- The group of a class stands in the section of code records. -/
theorem holds_methods (draft : Draft) (found : draft.classes[classId]? = some owner)
    (some : (draft.codeRecords owner.methods).isEmpty = false) :
    Holds (draft.sectionContent .codeRecords) (startOf (draft.methodGroupsIn draft.pool) classId)
      (word32 (UInt32.ofNat (draft.codeRecords owner.methods).length) ++
        (draft.codeRecords owner.methods).flatMap CodeRecord.encode) := by
  obtain ⟨before, after, split, length⟩ := holds_flatten (draft.methodGroup_get found)
  have whole : Holds (draft.methodGroupsIn draft.pool).flatten
      (startOf (draft.methodGroupsIn draft.pool) classId)
      (group ((draft.codeRecords owner.methods).map CodeRecord.encode)) :=
    ⟨before, after, split, length⟩
  simp only [group, List.isEmpty_map, some, List.length_map, ← List.flatMap_def] at whole
  exact whole.extend (List.prefix_append _ _)

theorem codeRecords_few (addressable : draft.Addressable)
    (found : draft.classes[classId]? = some owner) :
    (draft.codeRecords owner.methods).length < 2 ^ 31 := by
  rcases empty : (draft.codeRecords owner.methods).isEmpty with _ | _
  · have bound := (draft.holds_methods found empty).bound
    have room := draft.part_length_le .codeRecords
    have tables := addressable.tables
    have wide : codeRecordSize = 24 := rfl
    rw [List.length_append, List.flatMap_def, records_encode_length, wide] at bound
    omega
  · simp [List.isEmpty_iff.mp empty]

/-- The methods of a class are read back in their order. -/
theorem methodsOf_read (loaded : draft.Loaded library) (addressable : draft.Addressable)
    (found : draft.classes[classId]? = some owner)
    (small : startOf (draft.methodGroupsIn draft.pool) classId < 2 ^ 31) :
    library.methodsOf (draft.classRecordOf classId owner) = .ok (draft.codeRecords owner.methods) := by
  rcases empty : (draft.codeRecords owner.methods).isEmpty with _ | _
  · have holds := draft.holds_methods found empty
    rw [← loaded.part .codeRecords _ rfl] at holds
    have place : (draft.classRecordOf classId owner).methodsOffset =
        Int32.ofNat (startOf (draft.methodGroupsIn draft.pool) classId) := by
      simp only [classRecordOf, empty, Bool.false_eq_true, if_false]
    rw [methodsOf, place, if_neg (ofNat_ne_noOffset small)]
    exact reading_ok (holds.runAtSigned small
      (reads_countedRecords _ (codeRecords_few addressable found)))
  · have none : (draft.classRecordOf classId owner).methodsOffset = noOffset := by
      simp only [classRecordOf, empty, if_true]
    rw [methodsOf, none, if_pos rfl, List.isEmpty_iff.mp empty]

/-! ## Names -/

/-- The pool has a text as far as it could be written. -/
theorem poolName_ok_iff (loaded : draft.Loaded library) (fits : draft.Fits)
    (known : draft.pool.Knows [text]) :
    library.poolName (Int32.ofNat (draft.pool.offsetOf [text])) = .ok name ↔ Kept text name := by
  have holds := draft.poolFacts.sound.holds known
  rw [List.flatMap_singleton, ← loaded.names] at holds
  obtain ⟨after, cursor⟩ := holds.cursor
  have read : Decoder.name.runAtSigned library.names (Int32.ofNat (draft.pool.offsetOf [text])) =
      (Decoder.name ⟨draft.pool.offsetOf [text], nameBytes text ++ after⟩).1 := by
    rw [Decoder.runAtSigned_ofNat _ _ (fits.offset known), Decoder.runAt, cursor]
    rfl
  rw [poolName, read, reading, inLibrary, mapError_ok]
  exact name_ok_iff

theorem poolName_read (loaded : draft.Loaded library) (fits : draft.Fits)
    (known : draft.pool.Knows [text]) (short : Short text) :
    library.poolName (Int32.ofNat (draft.pool.offsetOf [text])) = .ok text :=
  (poolName_ok_iff loaded fits known).mpr (kept_short short)

/-- Holder, name and signature of a piece of code are read back together. -/
theorem methodName_read (loaded : draft.Loaded library) (fits : draft.Fits)
    (known : draft.pool.Knows (nameParts code)) (short : ∀ text ∈ nameParts code, Short text) :
    library.methodName (draft.codeRecord codeId code) =
      .ok ⟨code.holder, code.method.name, code.method.signature⟩ := by
  have holds := draft.poolFacts.sound.holds known
  rw [← loaded.names] at holds
  have read : Decoder.Reads decodeMethodName ((nameParts code).flatMap nameBytes)
      ⟨code.holder, code.method.name, code.method.signature⟩ := by
    simp only [nameParts, List.flatMap_cons, List.flatMap_nil]
    refine (Decoder.reads_name (short code.holder (by simp [nameParts]))).bind ?_
    refine (Decoder.reads_name (short code.method.name (by simp [nameParts]))).bind ?_
    rw [List.append_nil]
    exact (Decoder.reads_name (short code.method.signature (by simp [nameParts]))).then_pure
      fun signature => { holder := code.holder, name := code.method.name, signature : MethodName }
  exact reading_ok (holds.runAtSigned (fits.offset known) read)

theorem nameTable_length (pool : NamePool) (names : List String) :
    (nameTableIn pool names).length = 4 * names.length := by
  simp [nameTableIn, List.length_flatMap, List.map_const', Nat.mul_comm]

/-- A table of names is read back name by name. -/
theorem indexedName_read (loaded : draft.Loaded library) (fits : draft.Fits)
    {names : List String} (known : ∀ name ∈ names, draft.pool.Knows [name])
    (short : ∀ name ∈ names, Short name) (found : names[index]? = some name) :
    library.indexedName (nameTableIn draft.pool names) index = .ok name := by
  have member := List.mem_of_getElem? found
  have holds : Holds (nameTableIn draft.pool names) (index * 4)
      (signed32 (Int32.ofNat (draft.pool.offsetOf [name]))) :=
    holds_fixed (fun name => signed32_length (Int32.ofNat (draft.pool.offsetOf [name]))) found
  have offset : library.reading (Decoder.int32.runAt (nameTableIn draft.pool names) (index * 4)) =
      .ok (Int32.ofNat (draft.pool.offsetOf [name])) :=
    reading_ok (holds.runAt (Decoder.reads_int32 _))
  rw [indexedName, offset, ok_bind]
  exact poolName_read loaded fits (known name member) (short name member)

/-! ## What the sections mention -/

theorem knows_table (names : List String) (inside : tableTexts names ⊆ draft.texts)
    (member : name ∈ names) : draft.pool.Knows [name] :=
  draft.poolFacts.knowsTexts _ (inside (List.mem_map.mpr ⟨name, member, rfl⟩))

theorem metaspace_texts (draft : Draft) : tableTexts draft.metaspaceNames ⊆ draft.texts := by
  intro parts member
  simp [texts, member]

theorem object_texts (draft : Draft) : tableTexts draft.objectNames ⊆ draft.texts := by
  intro parts member
  simp [texts, member]

theorem routine_texts (draft : Draft) : tableTexts draft.routines ⊆ draft.texts := by
  intro parts member
  simp [texts, member]

theorem descriptor_text (found : draft.codes[codeId]? = some code)
    (member : descriptor ∈ code.method.metadata) : [descriptor] ∈ draft.texts := by
  refine List.mem_append_left _ (List.mem_flatMap.mpr ⟨code, List.mem_of_getElem? found, ?_⟩)
  exact List.mem_map.mpr ⟨descriptor, member, rfl⟩

theorem knows_descriptor (found : draft.codes[codeId]? = some code)
    (member : descriptor ∈ code.method.metadata) : draft.pool.Knows [descriptor] :=
  draft.poolFacts.knowsTexts _ (descriptor_text found member)

theorem method_text (found : draft.codes[codeId]? = some code) (target : owner ∈ draft.classes)
    (member : codeId ∈ owner.methods) : nameParts code ∈ draft.texts := by
  refine List.mem_append_right _ (List.mem_append_left _ (List.mem_flatMap.mpr ⟨owner, target, ?_⟩))
  exact List.mem_map.mpr ⟨code, List.mem_filterMap.mpr ⟨codeId, member, found⟩, rfl⟩

theorem stub_text (found : draft.codes[codeId]? = some code) (member : codeId ∈ draft.stubs) :
    nameParts code ∈ draft.texts := by
  refine List.mem_append_right _ (List.mem_append_right _ (List.mem_append_left _ ?_))
  exact List.mem_map.mpr ⟨code, List.mem_filterMap.mpr ⟨codeId, member, found⟩, rfl⟩

/-- All texts of the draft can be written whole. -/
structure ShortTexts (draft : Draft) : Prop where
  mentioned : ∀ parts ∈ draft.texts, ∀ text ∈ parts, Short text

theorem metaspaceName_read (loaded : draft.Loaded library) (fits : draft.Fits)
    (short : draft.ShortTexts) (found : draft.metaspaceNames[index]? = some name) :
    library.metaspaceName index = .ok name := by
  rw [metaspaceName, loaded.part .metaspaceNames _ rfl]
  refine indexedName_read loaded fits (fun other => knows_table _ draft.metaspace_texts) ?_ found
  intro other member
  exact short.mentioned [other]
    (draft.metaspace_texts (List.mem_map.mpr ⟨other, member, rfl⟩)) other (by simp)

theorem objectName_read (loaded : draft.Loaded library) (fits : draft.Fits)
    (short : draft.ShortTexts) (found : draft.objectNames[index]? = some name) :
    library.objectName index = .ok name := by
  rw [objectName, loaded.part .objectNames _ rfl]
  refine indexedName_read loaded fits (fun other => knows_table _ draft.object_texts) ?_ found
  intro other member
  exact short.mentioned [other]
    (draft.object_texts (List.mem_map.mpr ⟨other, member, rfl⟩)) other (by simp)

theorem routines_content (draft : Draft) : draft.sectionContent .routines = signed32List
    (draft.routines.map fun name => Int32.ofNat (draft.pool.offsetOf [name])) := by
  simp only [sectionContent, finalContents, contentsIn, signed32List, nameTableIn, List.length_map,
    List.flatMap_map]

theorem routines_read (loaded : draft.Loaded library) (fits : draft.Fits)
    (short : draft.ShortTexts) : library.routines = .ok draft.routines := by
  have room := draft.part_length_le .routines
  have tables := fits.tables
  have few : (draft.routines.map fun name =>
      Int32.ofNat (draft.pool.offsetOf [name])).length < 2 ^ 31 := by
    have length := nameTable_length draft.pool draft.routines
    simp only [sectionContent, finalContents, contentsIn, List.length_append, length] at room
    rw [List.length_map]
    omega
  have read := (Decoder.reads_int32List few).run_start []
  rw [List.append_nil, ← draft.routines_content, ← loaded.part .routines _ rfl] at read
  have each : ∀ name ∈ draft.routines,
      (library.poolName ∘ fun name => Int32.ofNat (draft.pool.offsetOf [name])) name = .ok name := by
    intro name member
    rw [Function.comp_apply]
    exact poolName_read loaded fits (knows_table _ draft.routine_texts member)
      (short.mentioned [name] (draft.routine_texts (List.mem_map.mpr ⟨name, member, rfl⟩)) name
        (by simp))
  rw [Library.routines, reading_ok read, ok_bind, List.mapM_map, mapM_ok each, List.map_id']

/-! ## Details, dependents and stubs -/

theorem wordList_length (values : List UInt32) :
    (word32List values).length = 4 + 4 * values.length := by
  simp [word32List, List.length_flatMap, List.map_const', Nat.mul_comm]

theorem signedList_length (values : List Int32) :
    (signed32List values).length = 4 + 4 * values.length := by
  simp [signed32List, List.length_flatMap, List.map_const', Nat.mul_comm]

theorem holds_detail (draft : Draft) (found : draft.codes[codeId]? = some code) :
    Holds (draft.sectionContent .codeDetails) (startOf (draft.detailsIn draft.pool) codeId)
      (detailIn draft.pool code).encode :=
  holds_flatten (detail_get found)

/-- The lists of a detail are shorter than the section that holds them. -/
theorem detail_lists_le (draft : Draft) (found : draft.codes[codeId]? = some code) :
    startOf (draft.detailsIn draft.pool) codeId ≤ draft.namesStart ∧
      code.method.metadata.length ≤ draft.namesStart ∧
      code.method.classRefs.length ≤ draft.namesStart ∧
      code.method.objectRefs.length ≤ draft.namesStart := by
  have bound := (draft.holds_detail found).bound
  have room := draft.part_length_le .codeDetails
  simp only [CodeDetail.encode, List.length_append, wordList_length, signedList_length, detailIn,
    List.length_map] at bound
  omega

theorem detailOf_read (loaded : draft.Loaded library) (fits : draft.Fits)
    (found : draft.codes[codeId]? = some code) :
    library.detailOf (draft.codeRecord codeId code) = .ok (detailIn draft.pool code) := by
  have holds := draft.holds_detail found
  rw [← loaded.part .codeDetails _ rfl] at holds
  obtain ⟨start, metadata, classes, objects⟩ := draft.detail_lists_le found
  have tables := fits.tables
  refine reading_ok (holds.runAtSigned (Nat.lt_of_le_of_lt start tables)
    ((detailIn draft.pool code).reads_encode ?_ ?_ ?_))
  · rw [detailIn, List.length_map]
    exact Nat.lt_of_le_of_lt metadata tables
  · exact Nat.lt_of_le_of_lt classes tables
  · exact Nat.lt_of_le_of_lt objects tables

/-- The descriptors of a piece of code are read back through its detail. -/
theorem descriptors_read (loaded : draft.Loaded library) (fits : draft.Fits)
    (found : draft.codes[codeId]? = some code)
    (short : ∀ descriptor ∈ code.method.metadata, Short descriptor) :
    (detailIn draft.pool code).metadataNames.mapM library.poolName = .ok code.method.metadata := by
  have each : ∀ descriptor ∈ code.method.metadata, (library.poolName ∘ fun descriptor =>
      Int32.ofNat (draft.pool.offsetOf [descriptor])) descriptor = .ok descriptor := by
    intro descriptor member
    rw [Function.comp_apply]
    exact poolName_read loaded fits (knows_descriptor found member) (short descriptor member)
  simp only [detailIn]
  rw [List.mapM_map, mapM_ok each, List.map_id']

theorem signed_of_word (value : UInt32) : signed32 value.toInt32 = word32 value := by
  rw [signed32, UInt32.toUInt32_toInt32]

theorem nonNegative_ok {values : List UInt32} (small : ∀ value ∈ values, value.toNat < 2 ^ 31) :
    nonNegative (values.map UInt32.toInt32) = .ok (values.map UInt32.toNat) := by
  induction values with
  | nil => rfl
  | cons value rest ih =>
    have bound := small value (by simp)
    have same : value.toInt32 = Int32.ofNat value.toNat := by
      have recovered : UInt32.ofNat value.toNat = value := UInt32.ofNat_toNat
      exact congrArg UInt32.toInt32 recovered.symm
    have number : value.toInt32.toInt = value.toNat := by
      rw [same]
      exact Int32.toInt_ofNat_of_lt bound
    have nonneg : ¬value.toInt32 < 0 := by
      rw [Int32.lt_iff_toInt_lt, number]
      simp
    rw [List.map_cons, nonNegative, if_neg nonneg, ih fun other member => small other (by simp [member]),
      number, Int.toNat_natCast]
    rfl

/-- The code that depends on a class is read back in order. -/
theorem dependentsOf_read (loaded : draft.Loaded library) (fits : draft.Fits)
    (found : draft.classes[classId]? = some owner)
    (small : ∀ codeId ∈ owner.dependents, codeId.toNat < 2 ^ 31) :
    library.dependentsOf (draft.classRecordOf classId owner) =
      .ok (owner.dependents.map UInt32.toNat) := by
  rcases empty : owner.dependents.isEmpty with _ | _
  · have holds : Holds library.contents.dependents (startOf draft.dependentGroups classId)
        (signed32List (owner.dependents.map UInt32.toInt32)) := by
      have stands := holds_flatten (draft.dependentGroup_get found)
      simp only [group, List.isEmpty_map, empty, Bool.false_eq_true, if_false, List.length_map,
        ← List.flatMap_def] at stands
      rw [loaded.part .dependents _ rfl, signed32List, List.length_map, List.flatMap_map]
      simp only [signed_of_word]
      exact stands
    have bound := holds.bound
    have room := draft.part_length_le .dependents
    have tables := fits.tables
    rw [← loaded.part .dependents _ rfl] at room
    rw [signedList_length] at bound
    have place : (draft.classRecordOf classId owner).dependentsOffset =
        Int32.ofNat (startOf draft.dependentGroups classId) := by
      simp only [classRecordOf, empty, Bool.false_eq_true, if_false]
    have read := holds.runAtSigned (by omega) (Decoder.reads_int32List (by omega))
    rw [dependentsOf, place, if_neg (ofNat_ne_noOffset (by omega)), read, ok_bind, nonNegative_ok small]
    rfl
  · have none : (draft.classRecordOf classId owner).dependentsOffset = noOffset := by
      simp only [classRecordOf, empty, if_true]
    rw [dependentsOf, none, if_pos rfl, List.isEmpty_iff.mp empty]
    rfl

/-- Records that stand one after the other are read from their offsets. -/
theorem records_read (records : List CodeRecord) (front after : Bytes)
    (small : (front ++ (records.map CodeRecord.encode).flatten ++ after).length < 2 ^ 31) :
    (((runningOffsets front.length ((records.map CodeRecord.encode).map List.length)).map
      Int32.ofNat).mapM fun offset => CodeRecord.decode.runAtSigned
        (front ++ (records.map CodeRecord.encode).flatten ++ after) offset) = .ok records := by
  induction records generalizing front with
  | nil => rfl
  | cons record rest ih =>
    have whole : front ++ ((record :: rest).map CodeRecord.encode).flatten ++ after =
        (front ++ record.encode) ++ (rest.map CodeRecord.encode).flatten ++ after := by
      simp
    have holds : Holds ((front ++ record.encode) ++ (rest.map CodeRecord.encode).flatten ++ after)
        front.length record.encode :=
      ⟨front, (rest.map CodeRecord.encode).flatten ++ after, by simp, rfl⟩
    rw [whole] at small ⊢
    have onward := ih (front ++ record.encode) small
    rw [List.length_append] at onward small
    simp only [List.map_cons, runningOffsets, List.mapM_cons, onward]
    rw [holds.runAtSigned (by simp at small; omega) record.reads_encode]
    rfl

/-- The stub section lists where the records of the stubs stand. -/
theorem stubs_content (draft : Draft) : draft.sectionContent .stubs = signed32List ((runningOffsets
    (draft.methodGroupsIn draft.pool).flatten.length
    (((draft.codeRecords draft.stubs).map CodeRecord.encode).map List.length)).map Int32.ofNat) := by
  simp only [sectionContent, finalContents, contentsIn, stubRecordsIn, recordsIn_eq]

/-- The records of the stubs stand behind the groups of the classes. -/
theorem codeRecords_content (draft : Draft) : draft.sectionContent .codeRecords =
    (draft.methodGroupsIn draft.pool).flatten ++
      ((draft.codeRecords draft.stubs).map CodeRecord.encode).flatten ++ [] := by
  simp only [sectionContent, finalContents, contentsIn, stubRecordsIn, recordsIn_eq, List.append_nil]

/-- The offsets of the stubs are read back. -/
theorem stubOffsets_read (addressable : draft.Addressable) :
    Decoder.int32List.run (Cursor.start (draft.sectionContent .stubs)) =
      .ok ((runningOffsets (draft.methodGroupsIn draft.pool).flatten.length
        (((draft.codeRecords draft.stubs).map CodeRecord.encode).map List.length)).map
          Int32.ofNat) := by
  have room := draft.part_length_le .stubs
  have tables := addressable.tables
  rw [stubs_content, signedList_length] at room
  have few : ((runningOffsets (draft.methodGroupsIn draft.pool).flatten.length
      (((draft.codeRecords draft.stubs).map CodeRecord.encode).map List.length)).map
        Int32.ofNat).length < 2 ^ 31 := by omega
  have read := (Decoder.reads_int32List few).run_start []
  rwa [List.append_nil, ← draft.stubs_content] at read

theorem stubRecords_read (loaded : draft.Loaded library) (fits : draft.Fits) :
    library.stubRecords = .ok (draft.codeRecords draft.stubs) := by
  have read := stubOffsets_read fits.addressable
  have room := draft.part_length_le .codeRecords
  have tables := fits.tables
  rw [codeRecords_content] at room
  have each := records_read (draft.codeRecords draft.stubs) (draft.methodGroupsIn draft.pool).flatten
    [] (by omega)
  rw [stubRecords, loaded.part .stubs _ rfl, loaded.part .codeRecords _ rfl, read, ok_bind,
    codeRecords_content, each]
  rfl

/-! ## What fits -/

theorem startOf_lt (fits : draft.Fits) (part : Section) {pieces : List Bytes}
    (inside : pieces.flatten.length ≤ (draft.sectionContent part).length) (index : Nat) :
    startOf pieces index < 2 ^ 31 := by
  have place := startOf_le pieces index
  have room := draft.part_length_le part
  have tables := fits.tables
  omega

theorem methods_start_lt (fits : draft.Fits) (classId : Nat) :
    startOf (draft.methodGroupsIn draft.pool) classId < 2 ^ 31 := by
  refine startOf_lt fits .codeRecords ?_ classId
  simp [sectionContent, finalContents, contentsIn]

theorem class_number_lt (fits : draft.Fits) (inside : classId < draft.classes.length) :
    classId < 2 ^ 31 := by
  have room := draft.part_length_le .classes
  have tables := fits.tables
  have wide : classRecordSize = 24 := rfl
  rw [classes_length, wide] at room
  omega

theorem slot_lt (fits : draft.Fits) (inside : index < draft.metaspaceNames.length) :
    index < 2 ^ 31 := by
  have room := draft.part_length_le .metaspaceNames
  have tables := fits.tables
  simp only [sectionContent, finalContents, contentsIn, nameTable_length] at room
  omega

end Precompiled.Blob.Draft
