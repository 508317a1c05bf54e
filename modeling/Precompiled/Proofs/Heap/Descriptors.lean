import Precompiled.Proofs.Heap.Claims

/-! Which descriptor a slot has. The class that a name leads to keeps this very
name in its metaspace slot, and every metadata slot belongs to one reference of
one piece of code: to the one that it was laid out for when the blob was built. -/
namespace Precompiled

namespace Blob.Draft

open Heap Library Outcome

variable {draft : Draft} {library : Library} {text name descriptor : String} {offset : Nat}
  {codeId localIndex index : Nat} {record : ClassRecord} {entry : ClassEntry}
  {stubs : List CodeRecord}

/-! ## Classes -/

/-- Whatever is read at a small offset of the pool is read at its signed form. -/
theorem poolName_of_run (loaded : draft.Loaded library) (small : offset < 2 ^ 31)
    (read : Decoder.name.runAt draft.pool.bytes offset = .ok name) :
    library.poolName (Int32.ofNat offset) = .ok name := by
  apply reading_ok
  rw [loaded.names, Decoder.runAtSigned_ofNat _ _ small]
  exact read

/-- A metaspace slot is called what its entry in the pool says. -/
theorem metaspaceName_of_run (loaded : draft.Loaded library) (fits : draft.Fits)
    (found : draft.metaspaceNames[index]? = some text)
    (read : Decoder.name.runAt draft.pool.bytes (draft.pool.offsetOf [text]) = .ok name) :
    library.metaspaceName index = .ok name := by
  have known := knows_table _ draft.metaspace_texts (List.mem_of_getElem? found)
  have holds : Holds (nameTableIn draft.pool draft.metaspaceNames) (index * 4)
      (signed32 (Int32.ofNat (draft.pool.offsetOf [text]))) :=
    holds_fixed (fun name => signed32_length (Int32.ofNat (draft.pool.offsetOf [name]))) found
  have offset : library.reading (Decoder.int32.runAt (nameTableIn draft.pool draft.metaspaceNames)
      (index * 4)) = .ok (Int32.ofNat (draft.pool.offsetOf [text])) :=
    reading_ok (holds.runAt (Decoder.reads_int32 _))
  have table : library.contents.metaspaceNames = nameTableIn draft.pool draft.metaspaceNames :=
    loaded.part .metaspaceNames _ rfl
  rw [metaspaceName, table, indexedName, offset, ok_bind]
  exact poolName_of_run loaded (fits.offset known) read

/-- A name leads to a class only if the pool has it for the class. -/
theorem findClassRecord_some (loaded : draft.Loaded library)
    (found : library.findClassRecord name = .ok (some record)) :
    ∃ classId owner, draft.classes[classId]? = some owner ∧
      record = draft.classRecordOf classId owner ∧
      Decoder.name.runAt draft.pool.bytes (draft.pool.offsetOf [owner.name]) = .ok name := by
  unfold findClassRecord at found
  split at found
  next start size led =>
    obtain ⟨symbol, member, read, same⟩ := loaded.denoted _ (findSymbol_mem led)
    obtain ⟨value, decoded, equal⟩ := map_ok.mp found
    obtain rfl := Option.some.inj equal
    cases draft.leads member with
    | part part place behind holds form =>
      rw [form] at same
      cases (ExportedSymbol.mk.inj same).1
    | record classId owner place behind known holds form =>
      rw [form] at same read
      obtain ⟨-, rfl, rfl⟩ := ExportedSymbol.mk.inj same
      have stands := (draft.holds_part holds behind).inside (draft.holds_classRecord known)
      have standing := stands.runAt (draft.classRecordOf classId owner).reads_encode
      rw [loaded.bytes] at decoded
      refine ⟨classId, owner, known, ?_, read⟩
      exact Except.ok.inj ((mapError_ok.mp decoded).symm.trans standing)
  next => cases found

/-- The class that a name leads to has this name in its metaspace slot. -/
theorem metaspaceName_of_class (loaded : draft.Loaded library) (fits : draft.Fits)
    (listed : ∀ owner ∈ draft.classes, draft.metaspaceNames[owner.gotIndex]? = some owner.name)
    (found : library.findClassRecord name = .ok (some record))
    (slot : natural? record.gotIndex = some index) : library.metaspaceName index = .ok name := by
  obtain ⟨classId, owner, known, rfl, read⟩ := findClassRecord_some loaded found
  have place := listed owner (List.mem_of_getElem? known)
  have inside := (List.getElem?_eq_some_iff.mp place).1
  have number : natural? (draft.classRecordOf classId owner).gotIndex = some owner.gotIndex :=
    natural_ofNat (slot_lt fits inside)
  obtain rfl : owner.gotIndex = index := Option.some.inj (number.symm.trans slot)
  exact metaspaceName_of_run loaded fits place read

/-- A class entry that is found by name carries the record under its own number. -/
theorem lookupClass_record {image : Image} (loaded : draft.Loaded image.library) (fits : draft.Fits)
    (found : lookupClass image name = .ok (some entry)) :
    image.library.findClassRecord name = .ok (some entry.record) := by
  unfold lookupClass at found
  obtain ⟨outcome, read, found⟩ := bind_ok.mp found
  cases outcome with
  | none => cases found
  | some record =>
    obtain ⟨classId, owner, known, rfl, -⟩ := findClassRecord_some loaded read
    have inside := (List.getElem?_eq_some_iff.mp known).1
    have number : (draft.classRecordOf classId owner).classId.toUInt32.toNat = classId := by
      rw [classRecordOf, Int32.toUInt32_ofNat', word_value (Nat.lt_trans (class_number_lt fits inside)
        (by decide))]
    have entered : image.classEntry? classId = some entry := number ▸ pure_ok.mp found
    unfold Image.classEntry? at entered
    split at entered
    next =>
      obtain ⟨other, there, same⟩ := Option.map_eq_some_iff.mp entered
      obtain rfl : other = entry.record := congrArg ClassEntry.record same
      have recorded := (classRecord_read loaded known).symm.trans (toOption_some.mp there)
      rw [read, Except.ok.inj recorded]
    next => cases entered

/-! ## Metadata -/

/-- The record of a code id is the one that was assembled for it. -/
theorem record_read (loaded : draft.Loaded library) (fits : draft.Fits) {image : Image}
    (prepared : prepare library = .ok (image, stubs)) {owned : OwnedRecord}
    (found : image.record? codeId = some owned) :
    ∃ code, draft.codes[codeId]? = some code ∧ owned.record = draft.codeRecord codeId code := by
  obtain ⟨-, sound, -⟩ := prepare_claims prepared
  obtain ⟨claimed, slot⟩ := sound codeId owned found
  obtain ⟨codeIds, listed⟩ : ∃ codeIds, owned.record ∈ draft.codeRecords codeIds := by
    obtain ⟨record, owner⟩ := owned
    cases claimed with
    | @method classId _ records _ inside read listed among =>
      rw [classCount_eq loaded fits] at inside
      have known : draft.classes[classId]? = some draft.classes[classId] :=
        List.getElem?_eq_getElem inside
      obtain rfl := Except.ok.inj (read.symm.trans (classRecord_read loaded known))
      exact ⟨_, method_listed loaded fits.addressable known listed among⟩
    | stub listed among => exact ⟨_, stub_listed loaded fits.addressable listed among⟩
  obtain ⟨number, -, code, known, same⟩ := mem_codeRecords.mp listed
  have own : slotOf library (draft.codeRecord number code) = .ok number := slotOf_read loaded fits known
  rw [same, slot] at own
  obtain rfl := Except.ok.inj own
  exact ⟨code, known, same.symm⟩

theorem metadataSlot_ok {image : Image} :
    metadataSlot image codeId localIndex = .ok (descriptor, index) ↔
      ∃ owned detail nameOffset start, image.record? codeId = some owned ∧
        image.library.detailOf owned.record = .ok detail ∧
        detail.metadataNames[localIndex]? = some nameOffset ∧
        image.library.poolName nameOffset = .ok descriptor ∧
        natural? owned.record.metadataStart = some start ∧ start + localIndex = index := by
  unfold metadataSlot
  cases image.record? codeId with
  | none => simp [throw, throwThe, MonadExceptOf.throw]
  | some owned =>
    cases detailed : image.library.detailOf owned.record with
    | error reason => simp [detailed, bind, Except.bind]
    | ok detail =>
      cases named : detail.metadataNames[localIndex]? with
      | none => simp [detailed, named, bind, Except.bind, throw, throwThe, MonadExceptOf.throw]
      | some nameOffset =>
        cases pooled : image.library.poolName nameOffset with
        | error reason => simp [detailed, named, pooled, bind, Except.bind]
        | ok text =>
          cases begins : natural? owned.record.metadataStart with
          | none => simp [detailed, named, pooled, begins, bind, Except.bind, throw, throwThe,
              MonadExceptOf.throw]
          | some start => simp [detailed, named, pooled, begins, bind, Except.bind, pure, Except.pure]

/-- Where the metadata slots of a piece of code begin. -/
def metadataFrom (draft : Draft) (codeId : Nat) : Nat :=
  ((draft.codes.map fun code => code.method.metadata.length).take codeId).sum

theorem metadataStart_read (fits : draft.Fits) {code : CodeDraft}
    (found : draft.codes[codeId]? = some code) :
    natural? (draft.codeRecord codeId code).metadataStart = some (draft.metadataFrom codeId) := by
  have room := metadata_room found
  have slots := draft.metadata_length_le
  have details := draft.part_length_le .codeDetails
  have tables := fits.tables
  have small : draft.metadataFrom codeId < 2 ^ 31 := by
    unfold metadataFrom
    omega
  exact natural_ofNat small

/-- The slots of one piece of code end before those of the next begin. -/
theorem metadataFrom_lt {earlier later : Nat} {code : CodeDraft} (before : earlier < later)
    (found : draft.codes[earlier]? = some code) :
    draft.metadataFrom earlier + code.method.metadata.length ≤ draft.metadataFrom later := by
  obtain ⟨more, rfl⟩ : ∃ more, later = earlier + 1 + more := ⟨later - (earlier + 1), by omega⟩
  have known : (draft.codes.map fun code => code.method.metadata.length)[earlier]? =
      some code.method.metadata.length := by simp [found]
  simp only [metadataFrom]
  rw [List.take_add, List.sum_append, List.take_add_one, known]
  simp

/-- No slot is counted in two pieces of code. -/
theorem metadataFrom_unique {other otherIndex : Nat} {code rival : CodeDraft}
    (found : draft.codes[codeId]? = some code) (inside : localIndex < code.method.metadata.length)
    (among : draft.codes[other]? = some rival) (within : otherIndex < rival.method.metadata.length)
    (same : draft.metadataFrom codeId + localIndex = draft.metadataFrom other + otherIndex) :
    codeId = other ∧ localIndex = otherIndex := by
  rcases Nat.lt_trichotomy codeId other with before | equal | behind
  · have apart := metadataFrom_lt before found
    omega
  · subst equal
    exact ⟨rfl, by omega⟩
  · have apart := metadataFrom_lt behind among
    omega

/-- A metadata slot is laid out for a reference of a piece of code. Slots follow one
another in the order of code ids, and for each of these in the order in which its
references were described. The pool keeps the descriptor as far as it can be
written. -/
def OwnsSlot (draft : Draft) (codeId localIndex : Nat) (descriptor : String) (index : Nat) : Prop :=
  ∃ code text, draft.codes[codeId]? = some code ∧ code.method.metadata[localIndex]? = some text ∧
    Kept text descriptor ∧ index = draft.metadataFrom codeId + localIndex

/-- No two references have one metadata slot. -/
theorem OwnsSlot.unique {other otherIndex : Nat} {text : String}
    (first : draft.OwnsSlot codeId localIndex descriptor index)
    (second : draft.OwnsSlot other otherIndex text index) :
    codeId = other ∧ localIndex = otherIndex ∧ descriptor = text := by
  obtain ⟨code, own, known, listed, kept, place⟩ := first
  obtain ⟨rival, theirs, there, among, taken, same⟩ := second
  have inside := (List.getElem?_eq_some_iff.mp listed).1
  have within := (List.getElem?_eq_some_iff.mp among).1
  obtain ⟨rfl, rfl⟩ := metadataFrom_unique known inside there within (place.symm.trans same)
  obtain rfl := Option.some.inj (known.symm.trans there)
  obtain rfl := Option.some.inj (listed.symm.trans among)
  exact ⟨rfl, rfl, kept.unique taken⟩

/-- The heap finds a metadata slot and its descriptor for the reference that the slot was
laid out for, and for no other one. -/
theorem metadataSlot_iff (loaded : draft.Loaded library) (fits : draft.Fits) {image : Image}
    (prepared : prepare library = .ok (image, stubs))
    (recorded : ∀ codeId code, draft.codes[codeId]? = some code →
      ∃ owned, image.record? codeId = some owned) :
    metadataSlot image codeId localIndex = .ok (descriptor, index) ↔
      draft.OwnsSlot codeId localIndex descriptor index := by
  obtain ⟨rfl, -, -⟩ := prepare_claims prepared
  have named {code : CodeDraft} (known : draft.codes[codeId]? = some code) {text : String}
      (listed : code.method.metadata[localIndex]? = some text) :
      image.library.poolName (Int32.ofNat (draft.pool.offsetOf [text])) = .ok descriptor ↔
        Kept text descriptor :=
    poolName_ok_iff loaded fits (knows_descriptor known (List.mem_of_getElem? listed))
  constructor
  · intro found
    obtain ⟨owned, detail, nameOffset, start, there, detailed, name, pooled, begins, rfl⟩ :=
      metadataSlot_ok.mp found
    obtain ⟨code, known, same⟩ := record_read loaded fits prepared there
    rw [same] at detailed begins
    obtain rfl := Except.ok.inj (detailed.symm.trans (detailOf_read loaded fits known))
    obtain rfl := Option.some.inj (begins.symm.trans (metadataStart_read fits known))
    obtain ⟨text, listed, rfl⟩ := by simpa [detailIn] using name
    exact ⟨code, text, known, listed, (named known listed).mp pooled, rfl⟩
  · rintro ⟨code, text, known, listed, kept, rfl⟩
    obtain ⟨owned, there⟩ := recorded codeId code known
    obtain ⟨drafted, assembled, same⟩ := record_read loaded fits prepared there
    obtain rfl := Option.some.inj (known.symm.trans assembled)
    refine metadataSlot_ok.mpr ⟨owned, detailIn draft.pool code, _, _, there, ?_, ?_,
      (named known listed).mpr kept, ?_, rfl⟩
    · rw [same]
      exact detailOf_read loaded fits known
    · simp [detailIn, listed]
    · rw [same]
      exact metadataStart_read fits known

end Blob.Draft

end Precompiled
