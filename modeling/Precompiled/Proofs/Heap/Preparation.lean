import Mathlib.Data.Nat.Bitwise
import Precompiled.Proofs.Heap.Chronicle
import Precompiled.Proofs.Heap.SegmentMap

/-! Creating the heap of an assembled library. Every check that creation makes
is one that the assembler's work passes, provided that the segment size makes
sense and that code is entered inside its instructions. -/
namespace Precompiled.Blob.Draft

open Library Outcome Heap

variable {draft : Draft} {library : Library} {codeId classId : Nat} {code : CodeDraft}
  {owner : ClassDraft}

/-! ## Counts in the header -/

theorem classCount_eq (loaded : draft.Loaded library) (fits : draft.Fits) :
    library.header.classCount.toNat = draft.classes.length := by
  have room := draft.part_length_le .classes
  have tables := fits.tables
  have wide : classRecordSize = 24 := rfl
  rw [classes_length, wide] at room
  rw [loaded.header, finalHeader, word_value (by omega)]

theorem slotCount_eq (loaded : draft.Loaded library) (fits : draft.Fits) :
    library.header.slotCount.toNat = draft.codes.length := by
  have count := draft.codes_length_le
  have room := draft.part_length_le .code
  have tables := fits.tables
  rw [loaded.header, finalHeader, word_value (by omega)]

theorem metaspaceSize_eq (loaded : draft.Loaded library) (fits : draft.Fits) :
    library.header.metaspaceSize.toNat = draft.metaspaceNames.length := by
  have room := draft.part_length_le .metaspaceNames
  have tables := fits.tables
  simp only [sectionContent, finalContents, contentsIn, nameTable_length] at room
  rw [loaded.header, finalHeader, word_value (by omega)]

/-- The details mention every metadata slot. -/
theorem metadata_length_le (draft : Draft) :
    (draft.codes.map fun code => code.method.metadata.length).sum ≤
      (draft.sectionContent .codeDetails).length := by
  simp only [sectionContent, finalContents, contentsIn, detailsIn, List.map_map]
  induction draft.codes with
  | nil => simp
  | cons code rest ih =>
    have own : code.method.metadata.length ≤ (detailIn draft.pool code).encode.length := by
      simp only [CodeDetail.encode, List.length_append, wordList_length, signedList_length, detailIn,
        List.length_map]
      omega
    simp only [List.map_cons, List.sum_cons, List.flatten_cons, List.length_append,
      Function.comp_apply]
    omega

theorem metadataCount_eq (draft : Draft) : draft.metadataCount =
    (draft.codes.map fun code => code.method.metadata.length).sum := by
  unfold metadataCount
  induction draft.codes with
  | nil => rfl
  | cons code rest ih => rw [List.foldr_cons, ih, List.map_cons, List.sum_cons]

theorem metadataSize_eq (loaded : draft.Loaded library) (fits : draft.Fits) :
    library.header.metadataSize.toNat =
      (draft.codes.map fun code => code.method.metadata.length).sum := by
  have count := draft.metadata_length_le
  have room := draft.part_length_le .codeDetails
  have tables := fits.tables
  rw [loaded.header, finalHeader, metadataCount_eq, word_value (by omega)]

/-! ## Records and their slots -/

/-- The claims of code records to slots. -/
def claimsOf (draft : Draft) (owner : Option Nat) (codeIds : List Nat) : List (Nat × OwnedRecord) :=
  codeIds.filterMap fun codeId =>
    draft.codes[codeId]?.map fun code => (codeId, ⟨draft.codeRecord codeId code, owner⟩)

/-- What the methods of a class claim. -/
def classClaimsOf (draft : Draft) (classId : Nat) : List (Nat × OwnedRecord) :=
  draft.claimsOf (some classId) ((draft.classes[classId]?.map ClassDraft.methods).getD [])

/-- What all code claims. -/
def allClaims (draft : Draft) : List (Nat × OwnedRecord) :=
  (List.range draft.classes.length).flatMap draft.classClaimsOf ++ draft.claimsOf none draft.stubs

theorem slotOf_read (loaded : draft.Loaded library) (fits : draft.Fits)
    (found : draft.codes[codeId]? = some code) :
    slotOf library (draft.codeRecord codeId code) = .ok codeId := by
  have number : natural? (draft.codeRecord codeId code).codeId = some codeId :=
    natural_ofNat (code_number_lt fits found)
  have inside := (List.getElem?_eq_some_iff.mp found).1
  rw [slotOf, number]
  simp only [slotCount_eq loaded fits, inside, if_true]

theorem claims_read (loaded : draft.Loaded library) (fits : draft.Fits) (owner : Option Nat)
    (codeIds : List Nat) :
    claims library owner (draft.codeRecords codeIds) = .ok (draft.claimsOf owner codeIds) := by
  induction codeIds with
  | nil => rfl
  | cons codeId rest ih =>
    rcases found : draft.codes[codeId]? with _ | code
    · simpa [codeRecords, claimsOf, found] using ih
    · have first := slotOf_read loaded fits found
      simp only [codeRecords, claimsOf, claims, List.filterMap_cons, found, Option.map_some,
        List.mapM_cons, first, ok_bind] at ih ⊢
      rw [ih]
      rfl

theorem classClaims_read (loaded : draft.Loaded library) (fits : draft.Fits)
    (listed : ∀ owner ∈ draft.classes, owner.gotIndex < draft.metaspaceNames.length)
    (count first : Nat) (inside : first + count ≤ draft.classes.length) :
    classClaims library count first =
      .ok ((List.range' first count).flatMap draft.classClaimsOf) := by
  induction count generalizing first with
  | zero => rfl
  | succ count ih =>
    have known : first < draft.classes.length := by omega
    have found : draft.classes[first]? = some draft.classes[first] := List.getElem?_eq_getElem known
    have place := listed _ (List.getElem_mem known)
    have number : natural? (draft.classRecordOf first draft.classes[first]).classId = some first :=
      natural_ofNat (class_number_lt fits known)
    have slot : natural? (draft.classRecordOf first draft.classes[first]).gotIndex =
        some draft.classes[first].gotIndex := natural_ofNat (slot_lt fits place)
    have methods := methodsOf_read loaded fits.addressable found (methods_start_lt fits first)
    have own : draft.classClaimsOf first = draft.claimsOf (some first) draft.classes[first].methods := by
      simp [classClaimsOf, found]
    rw [classClaims, classRecord_read loaded found, ok_bind]
    refine guard_ok.mpr ⟨?_, ?_⟩
    · simp [number, slot, metaspaceSize_eq loaded fits, place]
    · rw [methods, ok_bind, claims_read loaded fits, ok_bind, ih (first + 1) (by omega), ok_bind,
        List.range'_succ, List.flatMap_cons, own]
      rfl

/-! ## The image -/

/-- The segment size is a power of two. -/
def SegmentPower (settings : BuildSettings) : Prop :=
  ∃ exponent : Nat, settings.codeSegmentSize.toInt = 2 ^ exponent

theorem hasSegmentSize_of_power {settings : BuildSettings} (power : SegmentPower settings) :
    settings.hasSegmentSize = true ∧ 0 < settings.codeSegmentSize.toInt := by
  obtain ⟨exponent, value⟩ := power
  have bound : settings.codeSegmentSize.toInt < 2 ^ 31 := settings.codeSegmentSize.toInt_lt
  have few : exponent < 31 := by
    refine Nat.lt_of_not_le fun large => ?_
    have grown : 2 ^ 31 ≤ 2 ^ exponent := Nat.pow_le_pow_right (by decide) large
    have whole : ((2 ^ exponent : Nat) : Int) = 2 ^ exponent := Int.natCast_pow 2 exponent
    rw [value, ← whole] at bound
    omega
  have same : settings.codeSegmentSize = Int32.ofInt (2 ^ exponent) := by
    rw [← value, Int32.ofInt_toInt]
  have each : ∀ exponent < 31, (decide (0 < Int32.ofInt (2 ^ exponent)) &&
      Int32.ofInt (2 ^ exponent) &&& (Int32.ofInt (2 ^ exponent) - 1) == 0) = true := by
    decide
  constructor
  · rw [BuildSettings.hasSegmentSize, same]
    exact each exponent few
  · rw [value]
    exact Int.pow_pos (by decide)

/-- A positive number that shares no bit with its predecessor is a power of
two: its highest bit would be set in both. -/
theorem exists_power_of_and_pred {number : Nat} (positive : 0 < number)
    (apart : number &&& (number - 1) = 0) : ∃ exponent, number = 2 ^ exponent := by
  have low : 2 ^ number.log2 ≤ number := Nat.log2_self_le (Nat.ne_of_gt positive)
  have high : number < 2 ^ (number.log2 + 1) := Nat.lt_log2_self
  refine ⟨number.log2, Nat.le_antisymm (Nat.le_of_not_lt fun above => ?_) low⟩
  have inNumber : number.testBit number.log2 = true :=
    Nat.testBit_of_two_pow_le_and_two_pow_add_one_gt low high
  have inPred : (number - 1).testBit number.log2 = true :=
    Nat.testBit_of_two_pow_le_and_two_pow_add_one_gt (by omega) (by omega)
  have both := Nat.testBit_and number (number - 1) number.log2
  simp [apart, inNumber, inPred] at both

/-- The bit trick that tests a segment size finds powers of two only. -/
theorem power_of_hasSegmentSize {settings : BuildSettings}
    (sized : settings.hasSegmentSize = true) : SegmentPower settings := by
  simp only [BuildSettings.hasSegmentSize, Bool.and_eq_true, decide_eq_true_eq, beq_iff_eq] at sized
  obtain ⟨positive, apart⟩ := sized
  unfold SegmentPower
  generalize settings.codeSegmentSize = size at positive apart ⊢
  have above : 0 < size.toBitVec.toInt := Int32.lt_iff_toInt_lt.mp positive
  have whole : size.toBitVec.toInt = size.toBitVec.toNat := by
    have := size.toBitVec.isLt
    rw [BitVec.toInt_eq_toNat_cond] at above ⊢
    split at above
    · rw [if_pos ‹_›]
    · omega
  have pred : (size - 1).toBitVec.toNat = size.toBitVec.toNat - 1 := by
    have one : (1 : Int32).toBitVec.toNat = 1 := rfl
    rw [Int32.toBitVec_sub, BitVec.toNat_sub_of_le (by rw [BitVec.le_def, one]; omega), one]
  have shared : size.toBitVec.toNat &&& (size.toBitVec.toNat - 1) = 0 := by
    rw [← pred, ← BitVec.toNat_and, ← Int32.toBitVec_and, apart]
    rfl
  obtain ⟨exponent, power⟩ := exists_power_of_and_pred (by omega) shared
  refine ⟨exponent, ?_⟩
  rw [← Int32.toInt_toBitVec, whole, power]
  exact Int.natCast_pow 2 exponent

/-- Per code id, the record that claims it last. -/
def recordTable (draft : Draft) : List (Option OwnedRecord) :=
  draft.allClaims.foldl (fun records claim => records.set claim.1 (some claim.2))
    (List.replicate draft.codes.length none)

/-- The fixed half of the heap of an assembled library. -/
def image (draft : Draft) (library : Library) : Image where
  library := library
  records := draft.recordTable

theorem prepare_read (loaded : draft.Loaded library) (fits : draft.Fits)
    (power : SegmentPower draft.settings)
    (listed : ∀ owner ∈ draft.classes, owner.gotIndex < draft.metaspaceNames.length) :
    prepare library = .ok (draft.image library, draft.codeRecords draft.stubs) := by
  obtain ⟨sized, positive⟩ := hasSegmentSize_of_power power
  have codeLength : library.codeSize = (draft.sectionContent .code).length := by
    rw [Library.codeSize, loaded.part .code _ rfl]
  have segments : library.contents.segments = draft.sectionContent .segments :=
    loaded.part .segments _ rfl
  have room := draft.part_length_le .code
  have tables := fits.tables
  have claimed := classClaims_read loaded fits listed draft.classes.length 0 (by omega)
  rw [← List.range_eq_range'] at claimed
  unfold prepare
  refine guard_ok.mpr ⟨by simp [loaded.valid], ?_⟩
  refine guard_ok.mpr ⟨by simp [loaded.settings, sized], ?_⟩
  refine guard_ok.mpr ⟨?_, ?_⟩
  · rw [codeLength, maxCodeSize]
    omega
  refine guard_ok.mpr ⟨?_, ?_⟩
  · rw [segments, loaded.settings, segmentSize_eq positive, draft.segments_length, codeLength]
    exact Nat.lt_irrefl _
  rw [classCount_eq loaded fits, claimed, ok_bind, stubRecords_read loaded fits, ok_bind,
    claims_read loaded fits, ok_bind, slotCount_eq loaded fits]
  rfl

/-- The heap knows the classes that were assembled, and no others. -/
theorem classEntry_read (loaded : draft.Loaded library) (fits : draft.Fits) {entry : ClassEntry} :
    Image.classEntry? (draft.image library) classId = some entry ↔
      ∃ owner, draft.classes[classId]? = some owner ∧
        entry = ⟨classId, draft.classRecordOf classId owner⟩ := by
  have count : (draft.image library).classCount = draft.classes.length := classCount_eq loaded fits
  rw [Image.classEntry?, count]
  constructor
  · intro found
    split at found
    next inside =>
      have owner : draft.classes[classId]? = some draft.classes[classId] :=
        List.getElem?_eq_getElem inside
      have read : (draft.image library).library.classRecord classId = _ := classRecord_read loaded owner
      rw [read] at found
      exact ⟨_, owner, (Option.some.inj found).symm⟩
    next => cases found
  · rintro ⟨owner, found, rfl⟩
    have inside := (List.getElem?_eq_some_iff.mp found).1
    have read : (draft.image library).library.classRecord classId = _ := classRecord_read loaded found
    rw [if_pos inside, read]
    rfl

/-! ## Places -/

/-- Code is entered inside its instructions. -/
structure Entered (method : MethodDraft) : Prop where
  entry : method.entryOffset < method.codeSize
  verifiedEntry : method.verifiedEntryOffset < method.codeSize

theorem span_lt (fits : draft.Fits) (found : draft.codes[codeId]? = some code) :
    span code < 2 ^ 31 := by
  have size := code_length_le found
  have room := draft.part_length_le .code
  have tables := fits.tables
  rw [span]
  omega

/-- Measured from its id, code still has its size. -/
theorem detail_size (fits : draft.Fits) (found : draft.codes[codeId]? = some code) :
    (detailIn draft.pool code).codeSize.toNat = span code := by
  have small := span_lt fits found
  have header : codeHeaderSize.toNat = 4 := rfl
  simp only [span, detailIn, UInt32.toNat_add, header] at small ⊢
  omega

/-- Measured from its id, code is still entered inside its instructions. -/
theorem detail_entered (fits : draft.Fits) (found : draft.codes[codeId]? = some code)
    (entered : Entered code.method) :
    (detailIn draft.pool code).entryOffset.toNat < (detailIn draft.pool code).codeSize.toNat ∧
      (detailIn draft.pool code).verifiedEntryOffset.toNat <
        (detailIn draft.pool code).codeSize.toNat := by
  have small := span_lt fits found
  have entry := UInt32.lt_iff_toNat_lt.mp entered.entry
  have verifiedEntry := UInt32.lt_iff_toNat_lt.mp entered.verifiedEntry
  have header : codeHeaderSize.toNat = 4 := rfl
  rw [detail_size fits found]
  simp only [span, detailIn, UInt32.toNat_add, header] at small ⊢
  omega

theorem metadata_room (found : draft.codes[codeId]? = some code) :
    ((draft.codes.map fun code => code.method.metadata.length).take codeId).sum +
        code.method.metadata.length ≤
      (draft.codes.map fun code => code.method.metadata.length).sum := by
  have inside : codeId < (draft.codes.map fun code => code.method.metadata.length).length := by
    simpa using (List.getElem?_eq_some_iff.mp found).1
  have own : (draft.codes.map fun code => code.method.metadata.length)[codeId]? =
      some code.method.metadata.length := by simp [found]
  have split := congrArg List.sum
    (List.take_append_drop codeId (draft.codes.map fun code => code.method.metadata.length))
  rw [List.sum_append, List.drop_eq_getElem_cons inside, List.sum_cons,
    (List.getElem?_eq_some_iff.mp own).2] at split
  omega

/-- Every piece of code has its place, provided that it is entered inside. -/
theorem geometry_read (loaded : draft.Loaded library) (fits : draft.Fits)
    (power : SegmentPower draft.settings) {image : Image} (own : image.library = library)
    (found : draft.codes[codeId]? = some code)
    (entered : (detailIn draft.pool code).entryOffset.toNat <
        (detailIn draft.pool code).codeSize.toNat ∧
      (detailIn draft.pool code).verifiedEntryOffset.toNat <
        (detailIn draft.pool code).codeSize.toNat) :
    Geometry image (draft.codeRecord codeId code) (detailIn draft.pool code)
      (startOf draft.codeChunks codeId)
      ((draft.codes.map fun code => code.method.metadata.length).take codeId).sum := by
  subst own
  obtain ⟨-, positive⟩ := hasSegmentSize_of_power power
  have begins := startOf_lt fits .code (Nat.le_refl _) codeId
  have room := metadata_room found
  have slots := draft.metadata_length_le
  have details := draft.part_length_le .codeDetails
  have tables := fits.tables
  have segment : image.segmentSize = draft.segmentSize := by
    simp only [Image.segmentSize, loaded.settings, segmentSize_eq positive]
  have codeLength : image.library.codeSize = (draft.sectionContent .code).length := by
    rw [Library.codeSize, loaded.part .code _ rfl]
  have inside := (holds_flatten (chunk_get found)).bound
  have covered := draft.span_le codeId code
  have count : (detailIn draft.pool code).metadataNames.length = code.method.metadata.length := by
    simp [detailIn]
  have before : ((draft.codes.map fun code => code.method.metadata.length).take codeId).sum < 2 ^ 31 := by
    omega
  have own : code.method.metadata.length < 2 ^ 31 := by omega
  exact
    { begins := natural_ofNat begins
      aligned := by
        rw [segment]
        exact Nat.mod_eq_zero_of_dvd (draft.start_whole codeId)
      inside := by
        rw [detail_size fits found, codeLength, sectionContent]
        omega
      entry := entered.1
      verifiedEntry := entered.2
      slots := natural_ofNat before
      count := by
        rw [count]
        exact natural_ofNat own
      room := by
        rw [count, metadataSize_eq loaded fits]
        exact room }

/-- Every piece of code can be placed, and lies where the assembler put it. -/
theorem place_read (loaded : draft.Loaded library) (fits : draft.Fits)
    (power : SegmentPower draft.settings) (found : draft.codes[codeId]? = some code)
    (entered : Entered code.method) (name : MethodName) (method : Option MethodRef)
    (holder : Option ClassRef) (classId : Option Nat) :
    (draft.image library).place (draft.codeRecord codeId code) (detailIn draft.pool code) name method
        holder classId =
      .ok (placedAt (draft.image library) (draft.codeRecord codeId code) (detailIn draft.pool code)
        name method holder classId (startOf draft.codeChunks codeId)
        ((draft.codes.map fun code => code.method.metadata.length).take codeId).sum) :=
  place_ok.mpr ⟨_, _, geometry_read loaded fits power rfl found (detail_entered fits found entered), rfl⟩

/-! ## The stubs -/

/-- What a draft has to be like for its blob to be linked. -/
structure Linkable (draft : Draft) : Prop where
  fits : draft.Fits
  short : draft.ShortTexts
  power : SegmentPower draft.settings
  entered : ∀ code ∈ draft.codes, Entered code.method
  listed : ∀ owner ∈ draft.classes, owner.gotIndex < draft.metaspaceNames.length

/-- The code of a stub. -/
def stubAt (draft : Draft) (library : Library) (codeId : Nat) (code : CodeDraft) : LinkedCode :=
  placedAt (draft.image library) (draft.codeRecord codeId code) (detailIn draft.pool code)
    ⟨code.holder, code.method.name, code.method.signature⟩ none none none
    (startOf draft.codeChunks codeId)
    ((draft.codes.map fun code => code.method.metadata.length).take codeId).sum

theorem stubCode_read (loaded : draft.Loaded library) (linkable : draft.Linkable)
    (found : draft.codes[codeId]? = some code) (member : codeId ∈ draft.stubs) :
    stubCode (draft.image library) (draft.codeRecord codeId code) =
      .ok (draft.stubAt library codeId code) := by
  have text := stub_text found member
  have name : library.methodName (draft.codeRecord codeId code) = _ := methodName_read loaded
    linkable.fits (draft.poolFacts.knowsTexts _ text) (linkable.short.mentioned _ text)
  have detail := detailOf_read loaded linkable.fits found
  have entered := linkable.entered code (List.mem_of_getElem? found)
  have placed := place_read loaded linkable.fits linkable.power found entered
    ⟨code.holder, code.method.name, code.method.signature⟩ none none none
  rw [stubCode]
  change (library.methodName _ >>= fun name => library.detailOf _ >>= fun detail => _) = _
  rw [name, ok_bind, detail, ok_bind, placed]
  rfl

theorem record_codeId (fits : draft.Fits) (found : draft.codes[codeId]? = some code) :
    (draft.codeRecord codeId code).codeId.toUInt32.toNat = codeId := by
  have small := code_number_lt fits found
  change (UInt32.ofNat codeId).toNat = codeId
  exact word_value (by omega)

theorem mem_codeRecords {codeIds : List Nat} {record : CodeRecord} :
    record ∈ draft.codeRecords codeIds ↔ ∃ codeId ∈ codeIds, ∃ code,
      draft.codes[codeId]? = some code ∧ draft.codeRecord codeId code = record := by
  simp only [codeRecords, List.mem_filterMap, Option.map_eq_some_iff]

/-- The heap of an assembled library can be created, with a stub in every slot
that was meant for one. -/
theorem create_read (loaded : draft.Loaded library) (linkable : draft.Linkable)
    (known : ∀ codeId ∈ draft.stubs, codeId < draft.codes.length) :
    ∃ heap : Heap, (∀ journal, ((Heap.create library).run journal).1 = .ok heap) ∧
      heap.image = draft.image library ∧
      ∀ codeId ∈ draft.stubs, ∃ code, heap.state.Holds codeId code := by
  have prepared := prepare_read loaded linkable.fits linkable.power linkable.listed
  have coded : ∀ record ∈ draft.codeRecords draft.stubs,
      ∃ stub, stubCode (draft.image library) record = .ok stub := by
    intro record member
    obtain ⟨codeId, among, code, found, rfl⟩ := mem_codeRecords.mp member
    exact ⟨_, stubCode_read loaded linkable found among⟩
  obtain ⟨state, settled⟩ := settleAll_total coded (draft.image library).initialState
  refine ⟨⟨draft.image library, state⟩, fun journal => create_ok.mpr ⟨_, prepared, settled⟩, rfl, ?_⟩
  intro codeId member
  have inside := known codeId member
  have found : draft.codes[codeId]? = some draft.codes[codeId] := List.getElem?_eq_getElem inside
  have own := stubCode_read loaded linkable found member
  have number : (draft.stubAt library codeId draft.codes[codeId]).codeId = codeId :=
    record_codeId linkable.fits found
  have slots : (draft.image library).initialState.slots.length = draft.codes.length := by
    simp only [Image.initialState, List.length_replicate, Image.slotCount, image,
      slotCount_eq loaded linkable.fits]
  have holds := settleAll_holds initial_pristine settled
    (mem_codeRecords.mpr ⟨codeId, member, _, found, rfl⟩) own (by rw [number, slots]; exact inside)
  rwa [number] at holds

end Precompiled.Blob.Draft
