import Mathlib.Data.List.Forall2
import Precompiled.Proofs.Blob.Edits
import Precompiled.Proofs.Library.Views

/-! Loading undoes building. The blob of any sequence of edits whose texts and
offsets fit the format is accepted, and every view of the library yields what
the edits put in: each class under its name and its number, its methods in
order with their ids, names, geometry and references, the code that depends on
it, the stubs, and the names behind the reference slots. -/
namespace Precompiled.Blob

open Draft

namespace Edit

/-- The texts that an edit brings along. -/
def texts : Edit → List String
  | .addClass name _ => [name]
  | .addMethod _ method => method.name :: method.signature :: method.metadata
  | .addStub name _ => [name]
  | .addDependent _ _ => []
  | .addMetaspaceSlot name => [name]
  | .addObjectSlot descriptor => [descriptor]
  | .addRoutine routine => [routine]

end Edit

namespace Edits

/-- What the format can say: classes are known before they are referred to, and
every text can be written whole. -/
structure Writable (edits : List Edit) : Prop where
  known : Known edits
  short : ∀ edit ∈ edits, ∀ text ∈ edit.texts, Short text
  /-- No class takes the place of a section. -/
  free : ∀ entry ∈ classes edits, ∀ part : Section, entry.1 ≠ part.symbol

variable {edits : List Edit} {settings : BuildSettings} {engineVersion : String}
  {owner : Option Nat} {codeId : Nat} {method : MethodDraft}

theorem short_empty : Short "" := by
  unfold Short
  decide +kernel

/-- Whatever texts a view of the edits shows, they are among the texts that
the edits bring along. -/
theorem Writable.short_of (writable : Writable edits) {view : Edit → Option α} {text : α → String}
    (brought : ∀ edit value, view edit = some value → text value ∈ edit.texts)
    (member : value ∈ edits.filterMap view) : Short (text value) := by
  obtain ⟨edit, among, added⟩ := List.mem_filterMap.mp member
  exact writable.short edit among _ (brought edit value added)

theorem Writable.text_short (writable : Writable edits) {view : Edit → Option String}
    (brought : ∀ edit text, view edit = some text → text ∈ edit.texts)
    (member : text ∈ edits.filterMap view) : Short text :=
  writable.short_of brought member

theorem Writable.class_short (writable : Writable edits) (member : entry ∈ classes edits) :
    Short entry.1 := by
  refine writable.short_of ?_ member
  intro edit value added
  cases edit <;> cases added
  simp [Edit.texts]

theorem Writable.holder_short (writable : Writable edits) (owner : Option Nat) :
    Short (holder edits owner) := by
  cases owner with
  | none => exact short_empty
  | some classId =>
    rcases found : (classes edits)[classId]? with _ | entry
    · simpa [holder, found] using short_empty
    · simpa [holder, found] using writable.class_short (List.mem_of_getElem? found)

theorem Writable.method_short (writable : Writable edits) (member : (owner, method) ∈ codes edits) :
    Short method.name ∧ Short method.signature ∧ ∀ text ∈ method.metadata, Short text := by
  obtain ⟨edit, among, added⟩ := List.mem_filterMap.mp member
  have short := writable.short edit among
  cases edit with
  | addMethod classId draft =>
    obtain ⟨rfl, rfl⟩ := Prod.mk.inj (Option.some.inj added)
    exact ⟨short _ (by simp [Edit.texts]), short _ (by simp [Edit.texts]),
      fun text listed => short text (by simp [Edit.texts, listed])⟩
  | addStub name codeSize =>
    obtain ⟨rfl, rfl⟩ := Prod.mk.inj (Option.some.inj added)
    exact ⟨short name (by simp [Edit.texts]), short_empty, by simp⟩
  | _ => cases added

theorem mem_foldl_addName (names asked : List String)
    (member : name ∈ asked.foldl addName names) : name ∈ names ∨ name ∈ asked := by
  induction asked generalizing names with
  | nil => exact .inl member
  | cons first rest ih =>
    rcases ih (addName names first) member with earlier | later
    · unfold addName at earlier
      split at earlier
      · exact .inl earlier
      · rcases List.mem_append.mp earlier with old | new
        · exact .inl old
        · exact .inr (List.mem_singleton.mp new ▸ List.mem_cons_self)
    · exact .inr (List.mem_cons_of_mem _ later)

theorem Writable.metaspace_short (writable : Writable edits) (member : name ∈ metaspaceNames edits) :
    Short name := by
  rcases mem_foldl_addName [] _ member with impossible | asked
  · cases impossible
  · refine writable.text_short ?_ asked
    intro edit value added
    cases edit <;> cases added <;> simp [Edit.texts]

theorem Writable.object_short (writable : Writable edits) (member : name ∈ objectNames edits) :
    Short name := by
  refine writable.text_short ?_ member
  intro edit value added
  cases edit <;> cases added
  simp [Edit.texts]

theorem Writable.routine_short (writable : Writable edits) (member : name ∈ routines edits) :
    Short name := by
  refine writable.text_short ?_ member
  intro edit value added
  cases edit <;> cases added
  simp [Edit.texts]

/-! ## The summary as a draft -/

theorem summary_code (found : (codes edits)[codeId]? = some (owner, method)) :
    (summary settings engineVersion edits).codes[codeId]? =
      some ⟨holder edits owner, method⟩ := by
  simp [summary, found]

/-- Code of the summary was added for somebody. -/
theorem code_of_summary {code : CodeDraft}
    (found : (summary settings engineVersion edits).codes[codeId]? = some code) :
    ∃ owner, (codes edits)[codeId]? = some (owner, code.method) := by
  rw [summary, List.getElem?_map] at found
  obtain ⟨⟨owner, method⟩, added, rfl⟩ := Option.map_eq_some_iff.mp found
  exact ⟨owner, added⟩

theorem summary_class {classId : Nat} {entry : String × UInt64}
    (found : (classes edits)[classId]? = some entry) :
    (summary settings engineVersion edits).classes[classId]? =
      some (classDraft edits classId entry) := by
  simp [summary, found]

theorem summary_names : (summary settings engineVersion edits).classes.map ClassDraft.name =
    (classes edits).map Prod.fst := by
  apply List.ext_getElem?
  intro classId
  rcases found : (classes edits)[classId]? with _ | entry <;> simp [summary, found, classDraft]

theorem mem_dependents {dependent : UInt32} (member : dependent ∈ dependents edits classId) :
    (classId, dependent) ∈ edits.filterMap Edit.dependent? := by
  obtain ⟨⟨target, codeId⟩, among, kept⟩ := List.mem_filterMap.mp member
  split at kept
  next same =>
    cases kept
    exact same ▸ among
  next => cases kept

theorem Writable.classNames (writable : Writable edits) :
    (summary settings engineVersion edits).ClassNames := by
  have each : ∀ owner ∈ (summary settings engineVersion edits).classes,
      ∃ entry ∈ classes edits, entry.1 = owner.name := by
    intro owner member
    obtain ⟨classId, inside, rfl⟩ := List.mem_mapIdx.mp member
    exact ⟨(classes edits)[classId], List.getElem_mem inside, rfl⟩
  constructor
  · intro owner member
    obtain ⟨entry, among, same⟩ := each owner member
    exact same ▸ writable.class_short among
  · intro owner member part
    obtain ⟨entry, among, same⟩ := each owner member
    exact same ▸ writable.free entry among part

theorem Writable.record_short (writable : Writable edits) {codeIds : List Nat} {parts : List String}
    (member : parts ∈ (summary settings engineVersion edits).recordTexts codeIds) :
    ∀ text ∈ parts, Short text := by
  obtain ⟨code, among, rfl⟩ := List.mem_map.mp member
  obtain ⟨codeId, -, found⟩ := List.mem_filterMap.mp among
  obtain ⟨⟨owner, method⟩, added, rfl⟩ := List.mem_map.mp (List.mem_of_getElem? found)
  obtain ⟨name, signature, -⟩ := writable.method_short added
  intro text listed
  simp only [nameParts, List.mem_cons, List.not_mem_nil, or_false] at listed
  rcases listed with rfl | rfl | rfl
  · exact writable.holder_short owner
  · exact name
  · exact signature

theorem Writable.shortTexts (writable : Writable edits) :
    (summary settings engineVersion edits).ShortTexts := by
  constructor
  intro parts member
  simp only [texts, List.mem_append] at member
  have table : ∀ names : List String, (∀ name ∈ names, Short name) → parts ∈ tableTexts names →
      ∀ text ∈ parts, Short text := by
    intro names short listed text inside
    obtain ⟨name, among, rfl⟩ := List.mem_map.mp listed
    exact List.mem_singleton.mp inside ▸ short name among
  rcases member with detail | group | stub | metaspace | object | routine
  · obtain ⟨code, among, listed⟩ := List.mem_flatMap.mp detail
    obtain ⟨⟨owner, method⟩, added, rfl⟩ := List.mem_map.mp among
    exact table _ (writable.method_short added).2.2 listed
  · obtain ⟨target, -, listed⟩ := List.mem_flatMap.mp group
    exact writable.record_short listed
  · exact writable.record_short stub
  · exact table _ (fun _ => writable.metaspace_short) metaspace
  · exact table _ (fun _ => writable.object_short) object
  · exact table _ (fun _ => writable.routine_short) routine

theorem codeRecords_owned (owner : Option Nat) :
    (summary settings engineVersion edits).codeRecords ((owned edits owner).map Prod.fst) =
      (owned edits owner).map fun added =>
        (summary settings engineVersion edits).codeRecord added.1 ⟨holder edits owner, added.2⟩ := by
  rw [codeRecords, List.filterMap_map, ← List.filterMap_eq_map]
  apply List.filterMap_congr
  rintro ⟨codeId, method⟩ member
  simp only [Function.comp_apply, summary_code (mem_owned.mp member), Option.map_some]

end Edits

/-! ## What a library says -/

/-- The record stands for the code that was added under the id, held by a class
or, for a stub, by none. Code is measured from its id and not from its first
instruction. -/
structure Carries (library : Library) (holder : String) (added : Nat × MethodDraft)
    (record : CodeRecord) : Prop where
  codeId : record.codeId.toInt = added.1
  name : library.methodName record = .ok ⟨holder, added.2.name, added.2.signature⟩
  detail : ∃ detail, library.detailOf record = .ok detail ∧
    detail.codeSize.toNat = codeHeaderSize.toNat + added.2.codeSize.toNat ∧
    detail.entryOffset = codeHeaderSize + added.2.entryOffset ∧
    detail.verifiedEntryOffset = codeHeaderSize + added.2.verifiedEntryOffset ∧
    detail.frameSize = added.2.frameSize ∧
    detail.classRefs = added.2.classRefs ∧ detail.objectRefs = added.2.objectRefs ∧
    detail.metadataNames.mapM library.poolName = .ok added.2.metadata
  metadataCount : record.metadataCount.toInt = added.2.metadata.length
  code : ∃ offset : Nat, record.codeOffset.toInt = offset ∧
    library.codeIdAt offset = .ok record.codeId

/-- The class that was added under the number, with everything added to it. -/
structure CarriesClass (library : Library) (edits : List Edit) (classId : Nat) (name : String)
    (fingerprint : UInt64) (record : ClassRecord) : Prop where
  byNumber : library.classRecord classId = .ok record
  byName : library.findClassRecord name = .ok (some record)
  numbered : record.classId.toInt = classId
  fingerprint : record.fingerprint = fingerprint
  slot : ∃ index : Nat, record.gotIndex.toInt = index ∧ library.metaspaceName index = .ok name
  methods : ∃ records, library.methodsOf record = .ok records ∧
    List.Forall₂ (Carries library name) (Edits.owned edits (some classId)) records
  dependents : library.dependentsOf record =
    .ok ((Edits.dependents edits classId).map UInt32.toNat)

/-- The library says exactly what the edits described. -/
structure Describes (library : Library) (settings : BuildSettings) (engineVersion : String)
    (edits : List Edit) : Prop where
  engineVersion : library.engineVersion = engineVersion
  settings : library.settings = settings
  classes : ∀ classId name fingerprint, (Edits.classes edits)[classId]? = some (name, fingerprint) →
    ∃ record, CarriesClass library edits classId name fingerprint record
  stubs : ∃ records, library.stubRecords = .ok records ∧
    List.Forall₂ (Carries library "") (Edits.owned edits none) records
  metaspaceNames : ∀ (index : Nat) name, (Edits.metaspaceNames edits)[index]? = some name →
    library.metaspaceName index = .ok name
  objectNames : ∀ (index : Nat) descriptor, (Edits.objectNames edits)[index]? = some descriptor →
    library.objectName index = .ok descriptor
  routines : library.routines = .ok (Edits.routines edits)

namespace Draft

variable {draft : Draft} {library : Library} {code : CodeDraft} {codeId : Nat}

/-- The record of a piece of code leads to everything that was added with it. -/
theorem carries (loaded : draft.Loaded library) (fits : draft.Fits) (short : draft.ShortTexts)
    (found : draft.codes[codeId]? = some code) (named : nameParts code ∈ draft.texts) :
    Carries library code.holder (codeId, code.method) (draft.codeRecord codeId code) := by
  have size := code_length_le found
  have room := draft.part_length_le .code
  have tables := fits.tables
  have place := startOf_lt fits .code (Nat.le_refl _) codeId
  have count := draft.codes_length_le
  have inside := (List.getElem?_eq_some_iff.mp found).1
  obtain ⟨-, metadata, -, -⟩ := draft.detail_lists_le found
  have small : codeId < 2 ^ 31 := by omega
  have few : code.method.metadata.length < 2 ^ 31 := by omega
  constructor
  · exact Int32.toInt_ofNat_of_lt small
  · exact methodName_read loaded fits (draft.poolFacts.knowsTexts _ named) (short.mentioned _ named)
  · refine ⟨detailIn draft.pool code, detailOf_read loaded fits found, ?_, rfl, rfl, rfl, rfl, rfl, ?_⟩
    · have header : codeHeaderSize.toNat = 4 := rfl
      simp only [detailIn, UInt32.toNat_add, header] at size ⊢
      omega
    · refine descriptors_read loaded fits found fun descriptor member => ?_
      exact short.mentioned [descriptor] (descriptor_text found member) descriptor (by simp)
  · exact Int32.toInt_ofNat_of_lt few
  · exact ⟨startOf draft.codeChunks codeId, Int32.toInt_ofNat_of_lt place, codeIdAt_read loaded found⟩

end Draft

namespace Edits

variable {edits : List Edit} {settings : BuildSettings} {engineVersion name called : String}
  {id classId : Nat} {options : LoadOptions} {fingerprint : UInt64}

/-- The code of one owner is carried by its records, in order. -/
theorem carries_owned {library : Library} (writable : Writable edits)
    (fits : (summary settings engineVersion edits).Fits)
    (loaded : (summary settings engineVersion edits).Loaded library) (owner : Option Nat)
    (named : ∀ codeId method, (codeId, method) ∈ owned edits owner →
      nameParts ⟨holder edits owner, method⟩ ∈ (summary settings engineVersion edits).texts) :
    List.Forall₂ (Carries library (holder edits owner)) (owned edits owner)
      ((summary settings engineVersion edits).codeRecords ((owned edits owner).map Prod.fst)) := by
  rw [codeRecords_owned, List.forall₂_map_right_iff, List.forall₂_same]
  rintro ⟨codeId, method⟩ member
  exact Draft.carries loaded fits writable.shortTexts (summary_code (mem_owned.mp member))
    (named codeId method member)

/-- A class is found under its name and its number, with everything that was
added to it. -/
theorem carries_class (writable : Writable edits)
    (distinct : ((classes edits).map Prod.fst).Nodup)
    (small : ∀ dependent ∈ edits.filterMap Edit.dependent?, dependent.2.toNat < 2 ^ 31)
    (fits : (summary settings engineVersion edits).Fits)
    (loaded : (summary settings engineVersion edits).Loaded
      ((summary settings engineVersion edits).libraryNamed name id options))
    (found : (classes edits)[classId]? = some (called, fingerprint)) :
    CarriesClass ((summary settings engineVersion edits).libraryNamed name id options) edits classId
      called fingerprint ((summary settings engineVersion edits).classRecordOf classId
        (classDraft edits classId (called, fingerprint))) := by
  have target : (summary settings engineVersion edits).classes[classId]? =
      some (classDraft edits classId (called, fingerprint)) := summary_class found
  have member := List.mem_of_getElem? target
  have listed := class_has_slot (List.mem_of_getElem? found)
  have names : (summary settings engineVersion edits).ClassNames := writable.classNames
  have unique : ((summary settings engineVersion edits).classes.map ClassDraft.name).Nodup := by
    rwa [summary_names]
  have start := methods_start_lt fits classId
  have byName := findClassRecord_read names unique target name id options
  have place := slot_lt fits (List.idxOf_lt_length_of_mem listed)
  have slot := metaspaceName_read loaded fits writable.shortTexts (List.getElem?_idxOf listed)
  have methods := methodsOf_read loaded fits.addressable target start
  have holds : holder edits (some classId) = called := by simp [holder, found]
  have carried := carries_owned writable fits loaded (some classId) fun codeId method added =>
    method_text (summary_code (mem_owned.mp added)) member
      (List.mem_map.mpr ⟨(codeId, method), added, rfl⟩)
  rw [holds] at carried
  exact {
    byNumber := classRecord_read loaded target
    byName
    numbered := Int32.toInt_ofNat_of_lt
      (class_number_lt fits (List.getElem?_eq_some_iff.mp target).1)
    fingerprint := rfl
    slot := ⟨_, Int32.toInt_ofNat_of_lt place, slot⟩
    methods := ⟨_, methods, carried⟩
    dependents := dependentsOf_read loaded fits target fun codeId listed =>
      small (classId, codeId) (mem_dependents listed) }

theorem describes (writable : Writable edits) (version : 0 ∉ textBytes engineVersion)
    (distinct : ((classes edits).map Prod.fst).Nodup)
    (small : ∀ dependent ∈ edits.filterMap Edit.dependent?, dependent.2.toNat < 2 ^ 31)
    (fits : (summary settings engineVersion edits).Fits)
    (loaded : (summary settings engineVersion edits).Loaded
      ((summary settings engineVersion edits).libraryNamed name id options)) :
    Describes ((summary settings engineVersion edits).libraryNamed name id options) settings
      engineVersion edits where
  engineVersion := loaded.engineVersion.trans (beforeZero_eq version)
  settings := loaded.settings
  classes classId called fingerprint found :=
    ⟨_, carries_class writable distinct small fits loaded found⟩
  stubs := by
    refine ⟨_, stubRecords_read loaded fits, ?_⟩
    exact carries_owned writable fits loaded none fun codeId method added =>
      stub_text (summary_code (mem_owned.mp added)) (List.mem_map.mpr ⟨(codeId, method), added, rfl⟩)
  metaspaceNames index called found := metaspaceName_read loaded fits writable.shortTexts found
  objectNames index descriptor found := objectName_read loaded fits writable.shortTexts found
  routines := routines_read loaded fits writable.shortTexts

theorem load_run (data : Bytes) (name : String) (id : Nat) (options : LoadOptions)
    (journal : Journal) :
    ((Library.load data name id options).run journal).1 = Library.accept data name id options := by
  unfold Library.load
  rcases Library.accept data name id options with _ | library <;> rfl

/-- Every blob that is built is loaded, and loading it undoes building it. -/
theorem load_assembled (writable : Writable edits) (version : 0 ∉ textBytes engineVersion)
    (distinct : ((classes edits).map Prod.fst).Nodup)
    (small : ∀ dependent ∈ edits.filterMap Edit.dependent?, dependent.2.toNat < 2 ^ 31)
    (fits : (Draft.describe settings engineVersion edits).Fits)
    (name : String) (id : Nat) (options : LoadOptions) (journal : Journal) :
    ∃ library, ((Library.load (Draft.describe settings engineVersion edits).assemble name id
        options).run journal).1 = .ok library ∧
      Describes library settings engineVersion edits := by
  rw [describe_eq writable.known] at fits ⊢
  have accepted := Draft.accept_assemble fits.addressable writable.classNames name id options
  have loaded := Draft.loaded_of_accepted fits.addressable accepted
  exact ⟨_, (load_run _ _ _ _ _).trans accepted,
    describes writable version distinct small fits loaded⟩

/-- One class with a method that refers to everything, and a stub. -/
def sample : List Edit :=
  [.addClass "A" 7,
   .addMethod 0 { name := "m", signature := "()V", metadata := ["d"], classRefs := [0],
                  objectRefs := [0] },
   .addDependent 0 0, .addStub "s" 16, .addObjectSlot "o", .addRoutine "r"]

theorem sample_writable : Writable sample where
  known := by decide
  short := by decide +kernel
  free := by
    intro entry member part
    obtain rfl : entry = ("A", 7) := by simpa [sample, classes, Edit.class?] using member
    cases part <;> simp [Section.symbol]

theorem load_assembled_sample : ∃ library,
    ((Library.load (Draft.describe {} "1" sample).assemble "lib" 0 {}).run []).1 = .ok library ∧
      Describes library {} "1" sample :=
  load_assembled sample_writable (by decide +kernel) (by decide) (by decide)
    (Draft.fits_of_length (by decide +kernel)) "lib" 0 {} []

end Edits

end Precompiled.Blob
