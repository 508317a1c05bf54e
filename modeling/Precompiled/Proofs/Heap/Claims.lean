import Precompiled.Proofs.Heap.Preparation
import Precompiled.Proofs.Heap.Restoration
import Precompiled.Proofs.Library.RoundTrip

/-! Who claims a slot. The records of a heap are taken from the classes of its
library and from the stubs. If no two of them claim the same slot then the code of
a class is found under the class, whatever order they were read in. In a built blob
no two of them do, and whatever was added has a record. -/
namespace Precompiled

namespace Heap

open Blob Outcome

variable {library : Library} {image : Image} {owner other : Option Nat} {record : CodeRecord}
  {claim : Nat × OwnedRecord} {codeId classId first count : Nat}
  {result : List (Nat × OwnedRecord)}

/-- The record is among the methods of a class, or among the stubs. -/
inductive Claims (library : Library) : Option Nat → CodeRecord → Prop where
  | method {classId : Nat} {owner : ClassRecord} {records : List CodeRecord} {record : CodeRecord}
    (inside : classId < library.header.classCount.toNat)
    (read : library.classRecord classId = .ok owner)
    (listed : library.methodsOf owner = .ok records) (among : record ∈ records) :
    Claims library (some classId) record
  | stub {records : List CodeRecord} {record : CodeRecord}
    (listed : library.stubRecords = .ok records) (among : record ∈ records) :
    Claims library none record

/-- What claims the same slot has the same owner. -/
def Exclusive (library : Library) : Prop :=
  ∀ {owner other record claimant codeId}, Claims library owner record →
    Claims library other claimant → slotOf library record = .ok codeId →
    slotOf library claimant = .ok codeId → owner = other

/-! ## Reading the claims -/

theorem claims_sound {records : List CodeRecord} (read : claims library owner records = .ok result)
    (member : claim ∈ result) : claim.2.classId = owner ∧ claim.2.record ∈ records ∧
      slotOf library claim.2.record = .ok claim.1 := by
  obtain ⟨record, among, paired⟩ := mem_of_mapM_ok read member
  obtain ⟨slot, found, built⟩ := bind_ok.mp paired
  obtain rfl := pure_ok.mp built
  exact ⟨rfl, among, found⟩

theorem claims_complete {records : List CodeRecord} (read : claims library owner records = .ok result)
    (among : record ∈ records) :
    ∃ codeId, slotOf library record = .ok codeId ∧ (codeId, ⟨record, owner⟩) ∈ result := by
  obtain ⟨claim, member, paired⟩ := mapM_ok_mem read among
  obtain ⟨slot, found, built⟩ := bind_ok.mp paired
  obtain rfl := pure_ok.mp built
  exact ⟨slot, found, member⟩

theorem classClaims_succ (read : classClaims library (count + 1) first = .ok result) :
    ∃ owner records own rest, library.classRecord first = .ok owner ∧
      library.methodsOf owner = .ok records ∧ claims library (some first) records = .ok own ∧
      classClaims library count (first + 1) = .ok rest ∧ result = own ++ rest := by
  rw [classClaims] at read
  obtain ⟨owner, known, read⟩ := bind_ok.mp read
  obtain ⟨-, read⟩ := guard_ok.mp read
  obtain ⟨records, listed, read⟩ := bind_ok.mp read
  obtain ⟨own, claimed, read⟩ := bind_ok.mp read
  obtain ⟨rest, onward, built⟩ := bind_ok.mp read
  exact ⟨owner, records, own, rest, known, listed, claimed, onward, (pure_ok.mp built).symm⟩

theorem classClaims_sound (read : classClaims library count first = .ok result)
    (inside : first + count ≤ library.header.classCount.toNat) (member : claim ∈ result) :
    Claims library claim.2.classId claim.2.record ∧ slotOf library claim.2.record = .ok claim.1 := by
  induction count generalizing first result with
  | zero =>
    obtain rfl := Except.ok.inj read
    cases member
  | succ count ih =>
    obtain ⟨owner, records, own, rest, known, listed, claimed, onward, rfl⟩ := classClaims_succ read
    rcases List.mem_append.mp member with mine | later
    · obtain ⟨same, among, slot⟩ := claims_sound claimed mine
      rw [same]
      exact ⟨.method (by omega) known listed among, slot⟩
    · exact ih onward (by omega) later

theorem classClaims_complete (read : classClaims library count first = .ok result)
    (lower : first ≤ classId) (upper : classId < first + count) {owner : ClassRecord}
    {records : List CodeRecord} (known : library.classRecord classId = .ok owner)
    (listed : library.methodsOf owner = .ok records) (among : record ∈ records) :
    ∃ codeId, slotOf library record = .ok codeId ∧ (codeId, ⟨record, some classId⟩) ∈ result := by
  induction count generalizing first result with
  | zero => omega
  | succ count ih =>
    obtain ⟨found, taken, own, rest, present, methods, claimed, onward, rfl⟩ := classClaims_succ read
    by_cases here : first = classId
    · subst here
      obtain rfl := Except.ok.inj (known.symm.trans present)
      obtain rfl := Except.ok.inj (listed.symm.trans methods)
      obtain ⟨codeId, slot, member⟩ := claims_complete claimed among
      exact ⟨codeId, slot, List.mem_append_left _ member⟩
    · obtain ⟨codeId, slot, member⟩ := ih onward (by omega) (by omega)
      exact ⟨codeId, slot, List.mem_append_right _ member⟩

/-! ## The table of records -/

section Table

variable {α : Type} {claims : List (Nat × α)} {table : List (Option α)} {index : Nat} {value : α}

/-- Who has a slot in the end claimed it, or had it before. -/
theorem foldl_set_sound (found : (claims.foldl (fun table claim => table.set claim.1 (some claim.2))
    table)[index]? = some (some value)) : (index, value) ∈ claims ∨ table[index]? = some (some value) := by
  induction claims generalizing table with
  | nil => exact .inr found
  | cons claim rest ih =>
    rcases ih found with later | before
    · exact .inl (List.mem_cons_of_mem _ later)
    · rw [List.getElem?_set] at before
      split at before
      · rename_i here
        split at before
        · cases before
          exact .inl (here ▸ List.mem_cons_self)
        · cases before
      · exact .inr before

/-- A slot that was claimed is not free. -/
theorem foldl_set_taken (inside : index < table.length)
    (taken : (index, value) ∈ claims ∨ table[index]? = some (some value)) :
    ∃ last, (claims.foldl (fun table claim => table.set claim.1 (some claim.2))
      table)[index]? = some (some last) := by
  induction claims generalizing table value with
  | nil => exact ⟨value, taken.resolve_left List.not_mem_nil⟩
  | cons claim rest ih =>
    by_cases here : claim.1 = index
    · subst here
      exact ih (by simpa using inside) (.inr (List.getElem?_set_self inside))
    · have onward : (index, value) ∈ rest ∨
          (table.set claim.1 (some claim.2))[index]? = some (some value) := by
        rw [List.getElem?_set_ne here]
        rcases taken with member | before
        · cases member with
          | head => exact absurd rfl here
          | tail _ later => exact .inl later
        · exact .inr before
      exact ih (by simpa using inside) onward

end Table

/-- A number that is not negative is the same without its sign. -/
theorem natural_unsigned {value : Int32} {number : Nat} (found : natural? value = some number) :
    value.toUInt32.toNat = number := by
  unfold natural? at found
  split at found
  · cases found
  · rename_i nonneg
    have least : 0 ≤ value := Int32.not_lt.mp nonneg
    exact (Int32.toNat_toUInt32_of_le least).trans (Option.some.inj found)

theorem slotOf_ok : slotOf library record = .ok codeId ↔
    natural? record.codeId = some codeId ∧ codeId < library.header.slotCount.toNat := by
  unfold slotOf
  cases natural? record.codeId with
  | none => simp
  | some index =>
    by_cases inside : index < library.header.slotCount.toNat
    · simp only [inside, if_true, Except.ok.injEq, Option.some.injEq]
      constructor
      · rintro rfl
        exact ⟨rfl, inside⟩
      · exact fun same => same.1
    · simp only [inside, if_false, Option.some.injEq]
      constructor
      · intro impossible
        cases impossible
      · rintro ⟨rfl, impossible⟩
        exact absurd impossible inside

/-- A heap is prepared only for a library whose segment size makes sense. -/
theorem prepare_segments {stubs : List CodeRecord}
    (prepared : prepare library = .ok (image, stubs)) : library.settings.hasSegmentSize = true := by
  unfold prepare at prepared
  obtain ⟨-, prepared⟩ := guard_ok.mp prepared
  obtain ⟨sized, -⟩ := guard_ok.mp prepared
  simpa using sized

/-- A heap is prepared only for a library whose code offsets fit a word. -/
theorem prepare_codeSize {stubs : List CodeRecord}
    (prepared : prepare library = .ok (image, stubs)) : library.codeSize ≤ maxCodeSize := by
  unfold prepare at prepared
  obtain ⟨-, prepared⟩ := guard_ok.mp prepared
  obtain ⟨-, prepared⟩ := guard_ok.mp prepared
  obtain ⟨small, -⟩ := guard_ok.mp prepared
  exact Nat.le_of_not_lt small

/-- The records of a prepared heap are those that claim their slots, and no slot
that is claimed is left without one. -/
theorem prepare_claims {stubs : List CodeRecord} (prepared : prepare library = .ok (image, stubs)) :
    image.library = library ∧
    (∀ codeId owned, image.record? codeId = some owned →
      Claims library owned.classId owned.record ∧ slotOf library owned.record = .ok codeId) ∧
    ∀ owner record, Claims library owner record →
      ∃ codeId owned, slotOf library record = .ok codeId ∧ image.record? codeId = some owned := by
  unfold prepare at prepared
  obtain ⟨-, prepared⟩ := guard_ok.mp prepared
  obtain ⟨-, prepared⟩ := guard_ok.mp prepared
  obtain ⟨-, prepared⟩ := guard_ok.mp prepared
  obtain ⟨-, prepared⟩ := guard_ok.mp prepared
  obtain ⟨fromClasses, classes, prepared⟩ := bind_ok.mp prepared
  obtain ⟨listed, stubbed, prepared⟩ := bind_ok.mp prepared
  obtain ⟨fromStubs, others, prepared⟩ := bind_ok.mp prepared
  obtain ⟨rfl, rfl⟩ := Prod.mk.inj (pure_ok.mp prepared)
  refine ⟨rfl, ?_, ?_⟩
  · intro codeId owned found
    rcases foldl_set_sound (Option.join_eq_some_iff.mp found) with member | before
    · rcases List.mem_append.mp member with mine | stub
      · exact classClaims_sound classes (by omega) mine
      · obtain ⟨same, among, slot⟩ := claims_sound others stub
        rw [same]
        exact ⟨.stub stubbed among, slot⟩
    · simp [List.getElem?_replicate] at before
  · intro owner record claimed
    obtain ⟨codeId, slot, member⟩ : ∃ codeId, slotOf library record = .ok codeId ∧
        (codeId, ⟨record, owner⟩) ∈ fromClasses ++ fromStubs := by
      cases claimed with
      | method inside read listed among =>
        obtain ⟨codeId, slot, member⟩ :=
          classClaims_complete classes (Nat.zero_le _) (by omega) read listed among
        exact ⟨codeId, slot, List.mem_append_left _ member⟩
      | stub known among =>
        obtain rfl := Except.ok.inj (known.symm.trans stubbed)
        obtain ⟨codeId, slot, member⟩ := claims_complete others among
        exact ⟨codeId, slot, List.mem_append_right _ member⟩
    have inside : codeId <
        (List.replicate library.header.slotCount.toNat (none : Option OwnedRecord)).length := by
      simpa using (slotOf_ok.mp slot).2
    obtain ⟨last, found⟩ := foldl_set_taken inside (.inl member)
    exact ⟨codeId, last, slot, Option.join_eq_some_iff.mpr found⟩

/-- A heap is prepared with the stubs that its library lists. -/
theorem prepare_stubs {stubs : List CodeRecord} (prepared : prepare library = .ok (image, stubs)) :
    library.stubRecords = .ok stubs := by
  unfold prepare at prepared
  obtain ⟨-, prepared⟩ := guard_ok.mp prepared
  obtain ⟨-, prepared⟩ := guard_ok.mp prepared
  obtain ⟨-, prepared⟩ := guard_ok.mp prepared
  obtain ⟨-, prepared⟩ := guard_ok.mp prepared
  obtain ⟨fromClasses, _, prepared⟩ := bind_ok.mp prepared
  obtain ⟨listed, stubbed, prepared⟩ := bind_ok.mp prepared
  obtain ⟨fromStubs, _, prepared⟩ := bind_ok.mp prepared
  obtain rfl := congrArg Prod.snd (pure_ok.mp prepared)
  exact stubbed

/-- If no slot is claimed twice, linking a class yields only code of the class. -/
theorem consistent_of_exclusive {stubs : List CodeRecord}
    (prepared : prepare library = .ok (image, stubs)) (exclusive : Exclusive library) :
    image.Consistent := by
  obtain ⟨rfl, sound, complete⟩ := prepare_claims prepared
  intro entry holder code linked
  have known := linked.known
  obtain ⟨records, record, detail, name, live, listed, among, -, -, placed⟩ := linked.placed
  obtain ⟨offset, start, -, rfl⟩ := place_ok.mp placed
  unfold Image.classEntry? at known
  split at known
  next inside =>
    obtain ⟨owner, read, same⟩ := Option.map_eq_some_iff.mp known
    obtain rfl : owner = entry.record := congrArg ClassEntry.record same
    have claimed : Claims image.library (some entry.classId) record :=
      .method inside (toOption_some.mp read) listed among
    obtain ⟨codeId, owned, slot, found⟩ := complete _ _ claimed
    obtain ⟨claimant, there⟩ := sound codeId owned found
    have number : record.codeId.toUInt32.toNat = codeId := natural_unsigned (slotOf_ok.mp slot).1
    refine ⟨owned, ?_, exclusive claimant claimed there slot⟩
    change image.record? record.codeId.toUInt32.toNat = some owned
    rw [number]
    exact found
  next => cases known

end Heap

/-! ## Assembled libraries -/

namespace Blob

open Heap Library Outcome

/-- Read at a signed offset, what stands there is found or nothing is. -/
theorem Holds.found {α : Type} {decoder : Decoder α} {data written : Bytes} {offset : Nat}
    {value result : α} (holds : Holds data offset written) (small : offset < 2 ^ 32)
    (read : Decoder.Reads decoder written value)
    (ran : decoder.runAtSigned data (Int32.ofNat offset) = .ok result) : result = value := by
  cases place : natural? (Int32.ofNat offset) with
  | none =>
    have negative : Int32.ofNat offset < 0 := by
      by_contra nonneg
      simp [natural?, nonneg] at place
    simp [Decoder.runAtSigned, Cursor.atSigned?, negative, bind, Except.bind] at ran
  | some start =>
    have same : start = offset := by
      rw [← natural_unsigned place, Int32.toUInt32_ofNat', Draft.word_value small]
    have nonneg : ¬Int32.ofNat offset < 0 := by
      intro negative
      simp [natural?, negative] at place
    have number : (Int32.ofNat offset).toInt.toNat = offset := by
      simpa [natural?, nonneg, same] using place
    have found := holds.runAt read
    rw [Decoder.runAtSigned, Cursor.atSigned?, if_neg nonneg, number] at ran
    exact Except.ok.inj (ran.symm.trans found)

namespace Draft

variable {draft : Draft} {library : Library} {owner : ClassDraft} {codeId classId : Nat}
  {records : List CodeRecord} {record : CodeRecord} {code : CodeDraft}

/-- A class has no methods but those that were assembled for it. -/
theorem method_listed (loaded : draft.Loaded library) (addressable : draft.Addressable)
    (found : draft.classes[classId]? = some owner)
    (listed : library.methodsOf (draft.classRecordOf classId owner) = .ok records)
    (among : record ∈ records) : record ∈ draft.codeRecords owner.methods := by
  unfold methodsOf at listed
  split at listed
  · obtain rfl := Except.ok.inj listed
    cases among
  rename_i away
  have read := mapError_ok.mp listed
  cases empty : (draft.codeRecords owner.methods).isEmpty with
  | true => simp [classRecordOf, empty] at away
  | false =>
    have holds := draft.holds_methods found empty
    rw [← loaded.part .codeRecords _ rfl] at holds
    have bound := holds.bound
    have room := draft.part_length_le .codeRecords
    have tables := addressable.tables
    rw [← loaded.part .codeRecords _ rfl] at room
    simp only [classRecordOf, empty, Bool.false_eq_true, if_false] at read
    have same := holds.found (by omega)
      (reads_countedRecords _ (codeRecords_few addressable found)) read
    exact same ▸ among

/-- Each of the records that stand one after the other stands at its offset. -/
theorem records_hold (records : List CodeRecord) (front after : Bytes) {offset : Nat}
    (listed : offset ∈ runningOffsets front.length ((records.map CodeRecord.encode).map List.length)) :
    ∃ record ∈ records,
      Holds (front ++ (records.map CodeRecord.encode).flatten ++ after) offset record.encode := by
  induction records generalizing front with
  | nil => cases listed
  | cons record rest ih =>
    have whole : front ++ ((record :: rest).map CodeRecord.encode).flatten ++ after =
        (front ++ record.encode) ++ (rest.map CodeRecord.encode).flatten ++ after := by
      simp
    rw [whole]
    simp only [List.map_cons, runningOffsets, List.mem_cons] at listed
    rcases listed with rfl | later
    · exact ⟨record, by simp, front, (rest.map CodeRecord.encode).flatten ++ after, by simp, rfl⟩
    · rw [← List.length_append] at later
      obtain ⟨other, among, holds⟩ := ih (front ++ record.encode) later
      exact ⟨other, by simp [among], holds⟩

/-- There are no stubs but those that were assembled. -/
theorem stub_listed (loaded : draft.Loaded library) (addressable : draft.Addressable)
    (listed : library.stubRecords = .ok records) (among : record ∈ records) :
    record ∈ draft.codeRecords draft.stubs := by
  have room := draft.part_length_le .codeRecords
  have tables := addressable.tables
  have read := mapError_ok.mp listed
  rw [loaded.part .stubs _ rfl, loaded.part .codeRecords _ rfl, stubOffsets_read addressable,
    ok_bind] at read
  obtain ⟨place, member, found⟩ := mem_of_mapM_ok read among
  obtain ⟨offset, among, rfl⟩ := List.mem_map.mp member
  obtain ⟨stub, known, holds⟩ := records_hold _ _ [] among
  rw [← codeRecords_content] at holds
  have bound := holds.bound
  have same := holds.found (by omega) stub.reads_encode found
  exact same ▸ known

/-- Whoever claims a slot has the code whose number the slot has. -/
theorem claim_among {codeIds : List Nat} (addressable : draft.Addressable)
    (listed : record ∈ draft.codeRecords codeIds) (slot : slotOf library record = .ok codeId) :
    codeId ∈ codeIds := by
  obtain ⟨number, among, code, found, rfl⟩ := mem_codeRecords.mp listed
  have inside := (List.getElem?_eq_some_iff.mp found).1
  have count := draft.codes_length_le
  have room := draft.part_length_le .code
  have tables := addressable.tables
  have same : (Int32.ofNat number).toUInt32.toNat = codeId := natural_unsigned (slotOf_ok.mp slot).1
  rw [Int32.toUInt32_ofNat', word_value (by omega)] at same
  exact same ▸ among

end Draft

namespace Edits

variable {edits : List Edit} {settings : BuildSettings} {engineVersion : String} {library : Library}
  {owner : Option Nat} {record : CodeRecord} {codeId : Nat} {method : MethodDraft}

theorem claim_owned (loaded : (summary settings engineVersion edits).Loaded library)
    (addressable : (summary settings engineVersion edits).Addressable)
    (claimed : Claims library owner record) (slot : slotOf library record = .ok codeId) :
    codeId ∈ (owned edits owner).map Prod.fst := by
  cases claimed with
  | @method classId owner records record inside read listed among =>
    have count : library.header.classCount.toNat ≤ (classes edits).length := by
      rw [loaded.header, Draft.finalHeader, UInt32.toNat_ofNat']
      have classes : (summary settings engineVersion edits).classes.length = (classes edits).length := by
        simp [summary]
      exact classes ▸ Nat.mod_le _ _
    have bound : classId < (classes edits).length := by omega
    have found : (summary settings engineVersion edits).classes[classId]? =
        some (classDraft edits classId (classes edits)[classId]) :=
      summary_class (List.getElem?_eq_getElem bound)
    obtain rfl := Except.ok.inj (read.symm.trans (Draft.classRecord_read loaded found))
    have mine := Draft.method_listed loaded addressable found listed among
    exact Draft.claim_among addressable mine slot
  | stub listed among =>
    exact Draft.claim_among addressable (Draft.stub_listed loaded addressable listed among) slot

/-- Code that was added claims a slot for its owner. -/
theorem owner_claims (known : Known edits) (fits : (summary settings engineVersion edits).Fits)
    (loaded : (summary settings engineVersion edits).Loaded library)
    (added : (codes edits)[codeId]? = some (owner, method)) :
    Claims library owner
      ((summary settings engineVersion edits).codeRecord codeId ⟨holder edits owner, method⟩) := by
  have mine : codeId ∈ (owned edits owner).map Prod.fst :=
    List.mem_map.mpr ⟨(codeId, method), mem_owned.mpr added, rfl⟩
  have code : (summary settings engineVersion edits).codes[codeId]? = some _ := summary_code added
  have listed := Draft.mem_codeRecords.mpr ⟨codeId, mine, _, code, rfl⟩
  cases owner with
  | none => exact .stub (Draft.stubRecords_read loaded fits) listed
  | some classId =>
    have inside := known.owner_lt (List.mem_of_getElem? added)
    have found : (summary settings engineVersion edits).classes[classId]? = some _ :=
      summary_class (List.getElem?_eq_getElem inside)
    have count : classId < library.header.classCount.toNat := by
      rw [Draft.classCount_eq loaded fits]
      exact (List.getElem?_eq_some_iff.mp found).1
    exact .method count (Draft.classRecord_read loaded found)
      (Draft.methodsOf_read loaded fits.addressable found (Draft.methods_start_lt fits classId))
      listed

/-- In what was built of edits every slot has one owner. -/
theorem exclusive (loaded : (summary settings engineVersion edits).Loaded library)
    (addressable : (summary settings engineVersion edits).Addressable) : Exclusive library := by
  intro owner other record claimant codeId first second slot same
  exact owner_unique (claim_owned loaded addressable first slot)
    (claim_owned loaded addressable second same)

/-- Code that was added has a record, for its owner. -/
theorem owner_recorded (known : Known edits) (fits : (summary settings engineVersion edits).Fits)
    (loaded : (summary settings engineVersion edits).Loaded library) {image : Image}
    {stubs : List CodeRecord} (prepared : prepare library = .ok (image, stubs))
    (added : (codes edits)[codeId]? = some (owner, method)) :
    ∃ owned, image.record? codeId = some owned ∧ owned.classId = owner := by
  have claimed := owner_claims known fits loaded added
  obtain ⟨-, sound, complete⟩ := prepare_claims prepared
  obtain ⟨rival, owned, slot, found⟩ := complete _ _ claimed
  have own := Draft.slotOf_read loaded fits (summary_code added)
  obtain rfl : codeId = rival := Except.ok.inj (own.symm.trans slot)
  obtain ⟨claimant, there⟩ := sound codeId owned found
  exact ⟨owned, found, exclusive loaded fits.addressable claimant claimed there slot⟩

end Edits

end Blob

namespace Heap

open Blob

variable {edits : List Edit} {settings : BuildSettings} {engineVersion name : String} {id : Nat}
  {options : LoadOptions} {loading journal : Journal} {library : Library} {heap : Heap}

/-- The library of a heap of a built blob has what the edits describe, and the heap is what
preparing it and placing its stubs led to. -/
theorem built_prepared (known : Edits.Known edits)
    (addressable : (Draft.describe settings engineVersion edits).Addressable)
    (loaded : ((Library.load (Draft.describe settings engineVersion edits).assemble name id
      options).run loading).1 = .ok library)
    (created : ((Heap.create library).run journal).1 = .ok heap) :
    (Edits.summary settings engineVersion edits).Loaded heap.image.library ∧
      ∃ stubs, prepare heap.image.library = .ok (heap.image, stubs) ∧
        settleAll heap.image heap.image.initialState stubs = .ok heap.state := by
  rw [Edits.describe_eq known] at addressable loaded
  rw [Edits.load_run] at loaded
  have assembled := Draft.loaded_of_accepted addressable loaded
  obtain ⟨stubs, prepared, settled⟩ := create_ok.mp created
  obtain ⟨rfl, -, -⟩ := prepare_claims prepared
  exact ⟨assembled, stubs, prepared, settled⟩

end Heap

end Precompiled
