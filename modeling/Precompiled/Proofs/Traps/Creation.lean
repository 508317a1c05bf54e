import Precompiled.Proofs.Heap.Creation
import Precompiled.Proofs.Heap.Preparation
import Precompiled.Proofs.Traps.Registry

/-! Creating a heap. The checks are made in an order in which each of them protects the
expressions after it: the segment size before anything is shifted by it, the code ids of
all records before the tables are indexed by them. -/
namespace Precompiled.Heap

open Blob Trapping

/-- A table of the records that claim the slots. -/
abbrev ClaimTable := List (Option OwnedRecord)

/-- The size is no positive power of two. -/
def unfitSegmentSize (size : Int32) : Trapping Bool := do
  if size ≤ 0 then return true
  else return size &&& (← pred size) != 0

/-- How often a number can be halved within a number of rounds. -/
def trailingZeros : Nat → Nat → Nat
  | 0, _ => 0
  | rounds + 1, value => if value % 2 = 1 then 0 else trailingZeros rounds (value / 2) + 1

/-- Enters records into the table under their code ids. -/
def claim (stored : Stored) (owner : Option Nat) :
    List CodeRecord → ClaimTable → ExceptT Error Trapping ClaimTable
  | [], table => return table
  | record :: rest, table => do
    let index ← slotOf stored.library record
    claim stored owner rest (← put table index (some ⟨record, owner⟩))

/-- Enters the methods of `count` classes from `classId` on. -/
def claimClasses (stored : Stored) :
    Nat → Nat → ClaimTable → ExceptT Error Trapping ClaimTable
  | 0, _, table => return table
  | count + 1, classId, table => do
    let record ← stored.classRecord classId
    let gotIndex := natural? record.gotIndex
    if natural? record.classId ≠ some classId ∨
        ¬gotIndex.any (fun index => index < stored.header.metaspaceSize.toNat) then
      throw (.format stored.name (.classRecord classId))
    let methods ← stored.methodsOf record
    claimClasses stored count (classId + 1) (← claim stored (some classId) methods table)

/-- The fixed half of the heap of a library, and the records of its stubs. -/
def Fixture.prepare (stored : Stored) : ExceptT Error Trapping (Fixture × List CodeRecord) := do
  if !stored.valid then throw (.invalidLibrary stored.name)
  let refuse (fault : FormatFault) : Error := .format stored.name fault
  let size := stored.settings.codeSegmentSize
  let unfit ← unfitSegmentSize size
  if unfit then throw (refuse (.segmentSize size))
  if maxCodeSize < stored.codeSize then throw (refuse (.codeSize stored.codeSize))
  let shift := trailingZeros 32 size.toUInt32.toNat
  let map ← stored.segments
  let covered ← shiftLeft map.length shift
  if covered < stored.codeSize then throw (refuse .segmentMap)
  let table := List.replicate stored.header.slotCount.toNat none
  let table ← claimClasses stored stored.header.classCount.toNat 0 table
  let stubs ← stored.stubRecords
  let records ← claim stored none stubs table
  return (⟨stored, records, shift⟩, stubs)

/-- The code of a stub. -/
def Fixture.stubCode (fixture : Fixture) (record : CodeRecord) :
    ExceptT Error Trapping LinkedCode := do
  let name ← fixture.stored.methodName record
  let detail ← fixture.stored.detailOf record
  fixture.place record detail name none none none

/-- Puts one stub into its slot, unless another stub claimed the slot first. -/
def Fixture.registerStub (fixture : Fixture) (state : State) (record : CodeRecord) :
    ExceptT Error Trapping State := do
  let stub ← fixture.stubCode record
  let slot ← (Trapping.get state.slots stub.codeId : Trapping Slot)
  let (stored, after) := slot.publishStub stub
  if stored then
    let (_, admitted) ← fixture.admitCode stub
      { state with slots := state.slots.set stub.codeId after }
    return admitted
  else return state

/-- The heap of a library, with its stubs registered. -/
def Fixture.create (stored : Stored) : ExceptT Error Trapping (Fixture × State) := do
  let (fixture, stubs) ← Fixture.prepare stored
  let state ← stubs.foldlM fixture.registerStub fixture.image.initialState
  return (fixture, state)

/-! ## The segment size -/

theorem trailingZeros_two_pow {rounds exponent : Nat} (enough : exponent < rounds) :
    trailingZeros rounds (2 ^ exponent) = exponent := by
  induction rounds generalizing exponent with
  | zero => exact absurd enough (Nat.not_lt_zero _)
  | succ rounds ih =>
    cases exponent with
    | zero => rfl
    | succ exponent =>
      have even : 2 ^ (exponent + 1) % 2 = 0 := by omega
      have half : 2 ^ (exponent + 1) / 2 = 2 ^ exponent := by omega
      rw [trailingZeros, if_neg (by omega), half, ih (Nat.lt_of_succ_lt_succ enough)]

theorem unfitSegmentSize_ok (settings : BuildSettings) :
    unfitSegmentSize settings.codeSegmentSize = .ok !settings.hasSegmentSize := by
  rw [unfitSegmentSize, BuildSettings.hasSegmentSize]
  by_cases small : settings.codeSegmentSize ≤ 0
  · rw [if_pos small, decide_eq_false (Int32.not_lt.mpr small)]
    rfl
  · have positive : 0 < settings.codeSegmentSize := Int32.not_le.mp small
    have above : Int32.minValue < settings.codeSegmentSize :=
      Int32.lt_trans (by decide) positive
    rw [if_neg small, decide_eq_true positive, pred, if_pos above]
    rfl

/-- What the bit trick accepts is the power of two that its trailing zeros count. -/
theorem segmentSize_shift {settings : BuildSettings} (fit : settings.hasSegmentSize = true) :
    trailingZeros 32 settings.codeSegmentSize.toUInt32.toNat < 31 ∧
      settings.codeSegmentSize.toInt.toNat =
        2 ^ trailingZeros 32 settings.codeSegmentSize.toUInt32.toNat := by
  obtain ⟨exponent, power⟩ := Draft.power_of_hasSegmentSize fit
  have bound := settings.codeSegmentSize.toInt_lt
  have whole : ((2 ^ exponent : Nat) : Int) = 2 ^ exponent := Int.natCast_pow 2 exponent
  have natural : natural? settings.codeSegmentSize = some (2 ^ exponent) := by
    rw [natural?, if_neg, power, ← whole, Int.toNat_natCast]
    rw [Int32.not_lt, Int32.le_iff_toInt_le, power, ← whole]
    exact Int.natCast_nonneg _
  have few : exponent < 31 := by
    refine Nat.lt_of_not_le fun large => ?_
    have grown : 2 ^ 31 ≤ 2 ^ exponent := Nat.pow_le_pow_right (by decide) large
    rw [power, ← whole] at bound
    omega
  rw [natural_unsigned natural, trailingZeros_two_pow (by omega), power, ← whole, Int.toNat_natCast]
  exact ⟨few, rfl⟩

/-! ## The table of records -/

/-- The table after some claims; of two that claim a slot the later one has it. -/
def entered (table : ClaimTable) (claims : List (Nat × OwnedRecord)) : ClaimTable :=
  claims.foldl (fun table claim => table.set claim.1 (some claim.2)) table

theorem entered_append (table : ClaimTable) (first second : List (Nat × OwnedRecord)) :
    entered table (first ++ second) = entered (entered table first) second :=
  List.foldl_append

theorem entered_length (table : ClaimTable) (claims : List (Nat × OwnedRecord)) :
    (entered table claims).length = table.length := by
  induction claims generalizing table with
  | nil => rfl
  | cons claim rest ih => exact (ih _).trans List.length_set

section Claims

variable {stored : Stored} {table : ClaimTable}

theorem claim_evaluates (owner : Option Nat) (records : List CodeRecord)
    (size : table.length = stored.library.header.slotCount.toNat) :
    Evaluates (fun after claims => after = entered table claims)
      (claim stored owner records table) (claims stored.library owner records) := by
  induction records generalizing table with
  | nil => exact .ok rfl
  | cons record rest ih =>
    have plain : claims stored.library owner (record :: rest) = do
        let index ← slotOf stored.library record
        let others ← claims stored.library owner rest
        return (index, ⟨record, owner⟩) :: others := by
      rw [claims, List.mapM_cons]
      cases slotOf stored.library record <;> rfl
    rw [plain, claim]
    refine (Evaluates.lift _).bind ?_
    rintro index _ found rfl
    rw [evaluate_bind (put_ok (by rw [size]; exact (slotOf_ok.mp found).2) _)]
    exact (ih (List.length_set.trans size)).view fun _ _ known => known

theorem claimClasses_evaluates (sound : stored.Sound) (count first : Nat)
    (few : first + count < 2 ^ 32) (size : table.length = stored.library.header.slotCount.toNat) :
    Evaluates (fun after claims => after = entered table claims)
      (claimClasses stored count first table) (classClaims stored.library count first) := by
  induction count generalizing first table with
  | zero => exact .ok rfl
  | succ count ih =>
    rw [claimClasses, classClaims]
    refine (Evaluates.of_eq (sound.classRecord_ok (by omega))).bind ?_
    rintro record _ - rfl
    refine Evaluates.guard fun _ => ?_
    refine (Evaluates.of_eq (sound.methodsOf_ok record)).bind ?_
    rintro methods _ - rfl
    refine (claim_evaluates (some first) methods size).bind ?_
    rintro _ own - rfl
    refine (ih (first + 1) (by omega) ((entered_length table own).trans size)).view ?_
    rintro _ rest rfl
    exact (entered_append table own rest).symm

end Claims

/-! ## No trap while a heap is created -/

/-- The record is one that claimed a slot. -/
def Slotted (library : Library) (record : CodeRecord) : Prop :=
  ∃ codeId, slotOf library record = .ok codeId

theorem claims_slotted {library : Library} {owner : Option Nat} {records : List CodeRecord}
    {result : List (Nat × OwnedRecord)} (read : claims library owner records = .ok result) :
    ∀ record ∈ records, Slotted library record := fun _ among =>
  let ⟨codeId, found, _⟩ := claims_complete read among
  ⟨codeId, found⟩

/-- Creating a heap checks the metaspace slot of each of its classes. -/
theorem classClaims_natural {library : Library} {count first classId : Nat} {record : ClassRecord}
    {result : List (Nat × OwnedRecord)} (read : classClaims library count first = .ok result)
    (lower : first ≤ classId) (upper : classId < first + count)
    (known : library.classRecord classId = .ok record) :
    ∃ index, natural? record.gotIndex = some index := by
  induction count generalizing first result with
  | zero => omega
  | succ count ih =>
    rw [classClaims] at read
    obtain ⟨owner, found, read⟩ := Outcome.bind_ok.mp read
    obtain ⟨checked, read⟩ := Outcome.guard_ok.mp read
    obtain ⟨methods, -, read⟩ := Outcome.bind_ok.mp read
    obtain ⟨own, -, read⟩ := Outcome.bind_ok.mp read
    obtain ⟨rest, onward, -⟩ := Outcome.bind_ok.mp read
    by_cases here : first = classId
    · subst here
      obtain rfl := Except.ok.inj (found.symm.trans known)
      cases slot : natural? owner.gotIndex with
      | some index => exact ⟨index, rfl⟩
      | none => exact absurd (.inr (by simp [slot])) checked
    · exact ih onward (by omega) (by omega)

section Creation

variable {stored : Stored} {fixture : Fixture} {state : State}

theorem prepare_evaluates (sound : stored.Sound)
    (placed : stored.library.codeBase + stored.library.codeSize < 2 ^ 64) :
    Evaluates (fun prepared plain => prepared.1.image = plain.1 ∧ prepared.2 = plain.2 ∧
        prepared.1.Sound ∧ ∀ record ∈ prepared.2, Slotted prepared.1.image.library record)
      (Fixture.prepare stored) (Heap.prepare stored.library) := by
  unfold Fixture.prepare Heap.prepare
  refine Evaluates.guard fun _ => ?_
  dsimp only
  rw [evaluate_bind (unfitSegmentSize_ok _)]
  refine Evaluates.guard fun unfit => ?_
  have fit : stored.settings.hasSegmentSize = true := by simpa using unfit
  obtain ⟨narrow, power⟩ := segmentSize_shift fit
  rw [sound.codeSize_eq]
  refine Evaluates.guard fun fits => ?_
  have short : stored.library.contents.segments.length < 2 ^ 32 :=
    Nat.lt_of_le_of_lt (Nat.le_of_eq (Span.content_length sound.segments)) sound.shortMap
  have covered : shiftLeft stored.library.contents.segments.length
      (trailingZeros 32 stored.settings.codeSegmentSize.toUInt32.toNat) =
      .ok (stored.library.contents.segments.length *
        stored.settings.codeSegmentSize.toInt.toNat) := by
    have bound : 2 ^ trailingZeros 32 stored.settings.codeSegmentSize.toUInt32.toNat < 2 ^ 31 :=
      Nat.pow_lt_pow_right (by decide) narrow
    rw [shiftLeft_ok (by omega), power]
    exact Nat.lt_trans (Nat.mul_lt_mul'' short bound) (by decide)
  rw [evaluate_bind sound.segments_ok, evaluate_bind covered]
  refine Evaluates.guard fun _ => ?_
  have classes : stored.header.classCount.toNat < 2 ^ 32 := stored.header.classCount.toNat_lt
  refine (claimClasses_evaluates sound _ 0 (by omega) List.length_replicate).bind ?_
  rintro _ fromClasses claimed rfl
  refine (Evaluates.of_eq sound.stubRecords_ok).bind ?_
  rintro stubs _ - rfl
  refine (claim_evaluates none stubs ((entered_length _ _).trans List.length_replicate)).bind ?_
  rintro _ fromStubs read rfl
  have table := entered_append (List.replicate stored.library.header.slotCount.toNat none)
    fromClasses fromStubs
  refine .ok ⟨congrArg (Image.mk stored.library) table.symm, rfl, ?_, claims_slotted read⟩
  exact {
    stored := sound
    records := by
      rw [← table, entered_length, List.length_replicate]
      rfl
    narrow
    segmentSize := power
    codeSize := by
      have : maxCodeSize = 4294967295 := rfl
      exact Nat.lt_of_le_of_lt (Nat.le_of_not_lt fits) (by decide)
    classes := fun classId record inside known =>
      classClaims_natural claimed (Nat.zero_le _) (Nat.lt_of_lt_of_eq inside (Nat.zero_add _).symm) known
    placed }

theorem stubCode_evaluates (sound : fixture.Sound) (record : CodeRecord) :
    Evaluates (fun code placed => code = placed ∧ fixture.image.Contains code)
      (fixture.stubCode record) (Heap.stubCode fixture.image record) := by
  refine (Evaluates.of_eq (sound.stored.methodName_ok record)).bind ?_
  rintro name _ - rfl
  refine (Evaluates.of_eq (sound.stored.detailOf_ok record)).bind ?_
  rintro detail _ - rfl
  exact sound.place_evaluates

theorem registerStub_evaluates (sound : fixture.Sound) (intact : state.Intact fixture.image)
    {record : CodeRecord} (slotted : Slotted fixture.image.library record) :
    Evaluates (fun after plain => after = plain ∧ after.Intact fixture.image)
      (fixture.registerStub state record)
      ((Heap.stubCode fixture.image record).map (settle fixture.image state)) := by
  obtain ⟨codeId, slotId⟩ := slotted
  rw [Fixture.registerStub]
  refine (stubCode_evaluates sound record).bind_map ?_
  rintro stub _ coded ⟨rfl, contained⟩
  have inside : stub.codeId < state.slots.length := by
    rw [stubCode_codeId coded, natural_unsigned (slotOf_ok.mp slotId).1, intact.slots]
    exact (slotOf_ok.mp slotId).2
  have found : state.slots[stub.codeId]? = some state.slots[stub.codeId] :=
    List.getElem?_eq_getElem inside
  rw [evaluate_bind (get_ok found), settle, found]
  generalize state.slots[stub.codeId] = slot at found
  cases held : slot.handle with
  | some other =>
    simp only [Slot.publishStub, held]
    exact .ok ⟨rfl, intact⟩
  | none =>
    have kept : State.Intact fixture.image
        { state with slots := state.slots.set stub.codeId (slot.publishStub stub).2 } := by
      refine intact.set fun code stored => ?_
      rw [Slot.publishStub, held] at stored
      exact Option.some.inj stored ▸ contained
    have admitted := sound.admitCode_ok contained
      { state with slots := state.slots.set stub.codeId (slot.publishStub stub).2 }
    simp only [Slot.publishStub, held, if_true] at kept admitted ⊢
    rw [evaluate_bind admitted]
    exact .ok ⟨rfl, sound.admitCode_intact contained kept⟩

theorem initialState_intact (image : Image) : image.initialState.Intact image where
  slots := List.length_replicate
  loaders := List.length_replicate
  handles slot among code held := by
    rw [List.eq_of_mem_replicate among] at held
    cases held
  extent lower upper bounds := by cases bounds

theorem registerStubs_evaluates (sound : fixture.Sound) {stubs : List CodeRecord}
    (slotted : ∀ record ∈ stubs, Slotted fixture.image.library record)
    (intact : state.Intact fixture.image) :
    Evaluates (fun after plain => after = plain ∧ after.Intact fixture.image)
      (stubs.foldlM fixture.registerStub state) (settleAll fixture.image state stubs) := by
  induction stubs generalizing state with
  | nil => exact .ok ⟨rfl, intact⟩
  | cons record rest ih =>
    rw [settleAll, List.foldlM_cons, List.foldlM_cons]
    refine (registerStub_evaluates sound intact (slotted record List.mem_cons_self)).bind ?_
    rintro after _ - ⟨rfl, kept⟩
    exact ih (fun other among => slotted other (List.mem_cons_of_mem _ among)) kept

/-- Creating a heap does not trap, whatever the accepted bytes are. -/
theorem create_evaluates (sound : stored.Sound)
    (placed : stored.library.codeBase + stored.library.codeSize < 2 ^ 64) (journal : Journal) :
    Evaluates (fun made heap => (⟨made.1.image, made.2⟩ : Heap) = heap ∧ made.1.Sound ∧
        made.2.Intact made.1.image)
      (Fixture.create stored) ((Heap.create stored.library).run journal).1 := by
  rw [create_outcome, Fixture.create]
  refine (prepare_evaluates sound placed).bind ?_
  rintro ⟨fixture, stubs⟩ ⟨_, _⟩ - ⟨rfl, rfl, whole, slotted⟩
  refine (registerStubs_evaluates whole slotted (initialState_intact fixture.image)).bind_map ?_
  rintro state _ - ⟨rfl, intact⟩
  exact .ok ⟨rfl, whole, intact⟩

end Creation

end Precompiled.Heap
