import Precompiled.Heap.Revocation
import Precompiled.Proofs.Traps.Registry

/-! Taking code out of use. Sweeps count what they do by sums that have to fit a word; they
do because a list in a blob is short. A class is looked up again for each sweep, in tables
that keep the sizes they were made with. -/
namespace Precompiled.Heap

open Blob Trapping

/-! ## Reports -/

namespace SweepReport

/-- No count in the report is above the bound. -/
structure Fits (report : SweepReport) (bound : Nat) : Prop where
  invalidated : report.invalidated ≤ bound
  deoptimized : report.deoptimized ≤ bound
  alreadyInvalidated : report.alreadyInvalidated ≤ bound
  stubsSkipped : report.stubsSkipped ≤ bound

variable {first second : SweepReport} {bound more : Nat}

theorem fits_empty (bound : Nat) : Fits {} bound :=
  ⟨Nat.zero_le _, Nat.zero_le _, Nat.zero_le _, Nat.zero_le _⟩

theorem Fits.merge (fits : first.Fits bound) (others : second.Fits more) :
    (first.merge second).Fits (bound + more) :=
  ⟨Nat.add_le_add fits.1 others.1, Nat.add_le_add fits.2 others.2, Nat.add_le_add fits.3 others.3,
    Nat.add_le_add fits.4 others.4⟩

theorem empty_merge (report : SweepReport) : SweepReport.merge {} report = report := by
  simp only [merge, Nat.zero_add]

theorem merge_assoc (first second third : SweepReport) :
    (first.merge second).merge third = first.merge (second.merge third) := by
  simp only [merge, Nat.add_assoc]

/-- The reports of two sweeps as one. -/
def merge? (first second : SweepReport) : Trapping SweepReport := do
  return {
    invalidated := ← add first.invalidated second.invalidated
    deoptimized := ← add first.deoptimized second.deoptimized
    alreadyInvalidated := ← add first.alreadyInvalidated second.alreadyInvalidated
    stubsSkipped := ← add first.stubsSkipped second.stubsSkipped }

theorem merge_ok (fits : first.Fits bound) (others : second.Fits more) (room : bound + more < 2 ^ 64) :
    first.merge? second = .ok (first.merge second) := by
  have whole := fits.merge others
  rw [merge?, add_ok (Nat.lt_of_le_of_lt whole.1 room), add_ok (Nat.lt_of_le_of_lt whole.2 room),
    add_ok (Nat.lt_of_le_of_lt whole.3 room), add_ok (Nat.lt_of_le_of_lt whole.4 room)]
  rfl

end SweepReport

namespace Fixture

section Definitions

variable (fixture : Fixture)

/-! ## Looking classes up -/

/-- The class of the blob with a number. -/
def classEntry? (classId : Nat) (state : State) : Trapping (Option ClassEntry) := do
  if state.loaders.length ≤ classId then return none
  else
    match ← (fixture.stored.classRecord classId).run with
    | .error _ => return none
    | .ok record => return some ⟨classId, record⟩

def boundEntry (klass : ClassRef) (state : State) : Trapping (Option ClassEntry) :=
  match state.binding? klass with
  | none => return none
  | some classId => fixture.classEntry? classId state

/-- The first of some classes that owns a metaspace slot. -/
def ownerAmong (gotIndex : Nat) (state : State) : List Nat → Trapping (Option ClassEntry)
  | [] => return none
  | classId :: rest => do
    match ← fixture.classEntry? classId state with
    | none => ownerAmong gotIndex state rest
    | some entry =>
      if natural? entry.record.gotIndex = some gotIndex then return some entry
      else ownerAmong gotIndex state rest

def entryOf (klass : ClassRef) (state : State) : Trapping (Option ClassEntry) := do
  match ← fixture.boundEntry klass state with
  | some entry => return some entry
  | none =>
    match state.metaspace.resolved.find? fun slot => slot.2 = klass with
    | none => return none
    | some (index, _) => fixture.ownerAmong index state (List.range state.loaders.length)

/-- Whether a piece of code depends on a live class. -/
def isDependent (state : State) (klass : ClassRef) (codeId : Nat) : Trapping Bool := do
  match ← fixture.entryOf klass state with
  | none => return false
  | some entry =>
    match ← (fixture.stored.dependentsOf entry.record).run with
    | .error _ => return false
    | .ok dependents => return dependents.contains codeId

/-! ## Sweeping -/

/-- Invalidates one slot and counts what came of it. -/
def invalidateCode (codeId : Nat) (report : SweepReport) :
    Guarded Engine.signature Cell SweepReport := do
  match ← Operation.changeSlot codeId Slot.invalidate with
  | none => return report
  | some .stub =>
    let skipped ← add report.stubsSkipped 1
    return { report with stubsSkipped := skipped }
  | some .alreadyInvalidated =>
    let already ← add report.alreadyInvalidated 1
    return { report with alreadyInvalidated := already }
  | some (.invalidated false) =>
    let invalidated ← add report.invalidated 1
    countInvalidated
    return { report with invalidated }
  | some (.invalidated true) =>
    let invalidated ← add report.invalidated 1
    countInvalidated
    let deoptimized ← add report.deoptimized 1
    let handle ← (Operation.look fun state => state.slots[codeId]?.bind Slot.handle :
      Operation (Option LinkedCode))
    if let some code := handle then
      Operation.note .trace .deoptimization s!"deoptimizing {code.name.display}"
      Operation.ask (.deoptimize code)
    return { report with invalidated, deoptimized }

def invalidateCodes : List Nat → SweepReport → Guarded Engine.signature Cell SweepReport
  | [], report => return report
  | codeId :: rest, report => do
    let report ← invalidateCode codeId report
    invalidateCodes rest report

/-- Invalidates all code that depends on a class. -/
def invalidateDependents (entry : ClassEntry) : Guarded Engine.signature Cell SweepReport := do
  match ← (fixture.stored.dependentsOf entry.record).run with
  | .error error =>
    Operation.note .warn .deoptimization
      s!"dependents of class {entry.classId}: {error.message}"
    return {}
  | .ok dependents =>
    let report ← invalidateCodes dependents {}
    if 0 < report.invalidated then
      Operation.note .debug .deoptimization (s!"class {entry.classId} of {fixture.stored.name}: " ++
        s!"invalidated {report.invalidated} dependents ({report.deoptimized} deoptimized)")
    return report

/-- Whether a record belongs to a class. -/
def owns (classId : Nat) (owned : Option OwnedRecord) : Bool :=
  owned.any fun owned => owned.classId = some classId

/-- Invalidates those slots of a class whose phase is selected, record by record. -/
def invalidateClass (classId : Nat) (select : Slot.Phase → Bool) :
    List (Option OwnedRecord × Nat) → SweepReport → Guarded Engine.signature Cell SweepReport
  | [], report => return report
  | (owned, codeId) :: rest, report => do
    if owns classId owned then
      let slot ← look fun state => Trapping.get state.slots codeId
      let report ← if select slot.phase then invalidateCode codeId report else pure report
      invalidateClass classId select rest report
    else invalidateClass classId select rest report

/-- Retires the unresolved slots of a class, record by record, and counts them. -/
def retireClass (classId : Nat) :
    List (Option OwnedRecord × Nat) → Nat → Guarded Engine.signature Cell Nat
  | [], retired => return retired
  | (owned, codeId) :: rest, retired => do
    if owns classId owned then
      if (← Operation.changeSlot codeId Slot.retire) = some true then
        countInvalidated
        let retired ← add retired 1
        retireClass classId rest retired
      else retireClass classId rest retired
    else retireClass classId rest retired

/-- A live class is being redefined. -/
def flush (klass : ClassRef) : Guarded Engine.signature Cell SweepReport := do
  match ← look fun state => fixture.entryOf klass state with
  | none => return {}
  | some entry =>
    Operation.alter fun state => state.unbind klass
    let dependents ← fixture.invalidateDependents entry
    let own ← invalidateClass entry.classId (fun phase => phase == .resolved)
      fixture.records.zipIdx {}
    let report ← dependents.merge? own
    Operation.note .info .deoptimization
      (s!"redefinition of class {entry.classId} in {fixture.stored.name}: " ++
        s!"{report.invalidated} methods invalidated")
    return report

/-- A live class was unloaded. -/
def unload (klass : ClassRef) : Guarded Engine.signature Cell SweepReport := do
  let entry ← look fun state => fixture.entryOf klass state
  Operation.alter fun state => state.unbind klass
  let _ ← (Got.updateEach Cell.metaspace (fun _ value =>
    pure (if value = klass then none else some value)) : Operation (List (Nat × ClassRef)))
  match entry with
  | none => return {}
  | some entry =>
    let dependents ← fixture.invalidateDependents entry
    let own ← invalidateClass entry.classId (fun phase => phase != .invalidated)
      fixture.records.zipIdx {}
    let report ← dependents.merge? own
    Operation.note .debug .deoptimization
      (s!"unloaded class {entry.classId} of {fixture.stored.name}: " ++
        s!"{report.invalidated} methods invalidated")
    return report

end Definitions

variable {fixture : Fixture} {state : State}

/-! ## No trap in a look-up -/

namespace Sound

variable (sound : fixture.Sound) (intact : state.Intact fixture.image)
include sound intact

theorem classEntry_ok (classId : Nat) :
    fixture.classEntry? classId state = .ok (fixture.image.classEntry? classId) := by
  rw [Fixture.classEntry?, Image.classEntry?, intact.loaders]
  by_cases outside : fixture.image.classCount ≤ classId
  · rw [if_pos outside, if_neg (Nat.not_lt.mpr outside)]
    rfl
  · have inside := Nat.lt_of_not_le outside
    have few : fixture.image.classCount < 2 ^ 32 :=
      fixture.image.library.header.classCount.toNat_lt
    have read : (fixture.stored.classRecord classId).run =
        .ok (fixture.image.library.classRecord classId) :=
      sound.stored.classRecord_ok (Nat.lt_trans inside few)
    rw [if_neg outside, if_pos inside, read, Outcome.ok_bind]
    cases fixture.image.library.classRecord classId <;> rfl

theorem boundEntry_ok (klass : ClassRef) :
    fixture.boundEntry klass state = .ok (Heap.boundEntry fixture.image state klass) := by
  rw [Fixture.boundEntry, Heap.boundEntry]
  cases state.binding? klass with
  | none => rfl
  | some classId => exact sound.classEntry_ok intact classId

theorem ownerAmong_ok (gotIndex : Nat) (classIds : List Nat) :
    fixture.ownerAmong gotIndex state classIds =
      .ok ((classIds.filterMap fixture.image.classEntry?).find? fun entry =>
        natural? entry.record.gotIndex = some gotIndex) := by
  induction classIds with
  | nil => rfl
  | cons classId rest ih =>
    rw [ownerAmong, sound.classEntry_ok intact, Outcome.ok_bind, List.filterMap_cons]
    cases fixture.image.classEntry? classId with
    | none => exact ih
    | some entry =>
      dsimp only
      rw [List.find?_cons]
      by_cases owner : natural? entry.record.gotIndex = some gotIndex
      · rw [if_pos owner, decide_eq_true owner]
        rfl
      · rw [if_neg owner, decide_eq_false owner]
        exact ih

theorem entryOf_ok (klass : ClassRef) :
    fixture.entryOf klass state = .ok (Heap.entryOf fixture.image state klass) := by
  rw [Fixture.entryOf, Heap.entryOf, sound.boundEntry_ok intact, Outcome.ok_bind]
  cases Heap.boundEntry fixture.image state klass with
  | some entry => rfl
  | none =>
    dsimp only
    cases state.metaspace.resolved.find? fun slot => slot.2 = klass with
    | none => rfl
    | some found =>
      dsimp only
      rw [sound.ownerAmong_ok intact, intact.loaders]
      rfl

theorem isDependent_ok (klass : ClassRef) (codeId : Nat) :
    fixture.isDependent state klass codeId =
      .ok (Heap.isDependent fixture.image state klass codeId) := by
  rw [Fixture.isDependent, Heap.isDependent, sound.entryOf_ok intact, Outcome.ok_bind]
  cases Heap.entryOf fixture.image state klass with
  | none => rfl
  | some entry =>
    have read : (fixture.stored.dependentsOf entry.record).run =
        .ok (fixture.image.library.dependentsOf entry.record) :=
      sound.stored.dependentsOf_ok entry.record
    dsimp only
    rw [read, Outcome.ok_bind]
    cases fixture.image.library.dependentsOf entry.record <;> rfl

end Sound

/-! ## No trap in a sweep -/

/-- The count so far and what a sweep added to it. -/
def Adds (report : SweepReport) (bound : Nat) (value result : SweepReport) : Prop :=
  value = report.merge result ∧ result.Fits bound

section Sweeps

variable {image : Image} {report : SweepReport} {bound : Nat}

/-- Changing a slot breaks nothing if the slot keeps its handle. -/
theorem changeSlot_keeps {α : Type} {step : Slot → α × Slot} (codeId : Nat)
    (keeps : ∀ slot, (step slot).2.handle = slot.handle) :
    (Operation.changeSlot codeId step).Keeps (Whole image) := by
  unfold Operation.changeSlot Operation.change
  refine Action.keeps_step fun cell intact => ?_
  dsimp only
  cases found : cell.state.slots[codeId]? with
  | none => exact intact
  | some slot => exact intact.set fun code held => intact.handle found ((keeps slot).symm.trans held)

theorem countInvalidated_keeps : countInvalidated.Keeps (Whole image) :=
  keeps_count _

theorem invalidateCode_mirrors (codeId : Nat) (fits : report.Fits bound)
    (room : bound + 1 < 2 ^ 64) :
    Guarded.Mirrors (Whole image) (Adds report 1) (invalidateCode codeId report)
      (Heap.invalidateCode codeId) := by
  have invalidated : add report.invalidated 1 = .ok (report.invalidated + 1) :=
    add_ok (by have := fits.invalidated; omega)
  have deoptimized : add report.deoptimized 1 = .ok (report.deoptimized + 1) :=
    add_ok (by have := fits.deoptimized; omega)
  have already : add report.alreadyInvalidated 1 = .ok (report.alreadyInvalidated + 1) :=
    add_ok (by have := fits.alreadyInvalidated; omega)
  have skipped : add report.stubsSkipped 1 = .ok (report.stubsSkipped + 1) :=
    add_ok (by have := fits.stubsSkipped; omega)
  unfold invalidateCode Heap.invalidateCode
  refine (changeSlot_keeps codeId fun _ => invalidate_handle).lift.bind ?_
  rintro outcome _ rfl
  rcases outcome with _ | ⟨_ | _⟩ | _ | _
  case none => exact Guarded.mirrors_pure ⟨rfl, SweepReport.fits_empty 1⟩
  case some.invalidated.false =>
    rw [Guarded.evaluate_bind invalidated]
    refine countInvalidated_keeps.lift.bind fun _ _ _ => ?_
    exact Guarded.mirrors_pure ⟨rfl, Nat.le_refl 1, Nat.zero_le 1, Nat.zero_le 1, Nat.zero_le 1⟩
  case some.invalidated.true =>
    have counted : Adds report 1
        { report with
          invalidated := report.invalidated + 1, deoptimized := report.deoptimized + 1 }
        { invalidated := 1, deoptimized := 1 } :=
      ⟨rfl, Nat.le_refl 1, Nat.le_refl 1, Nat.zero_le 1, Nat.zero_le 1⟩
    dsimp only
    rw [Guarded.evaluate_bind invalidated]
    refine countInvalidated_keeps.lift.bind fun _ _ _ => ?_
    rw [Guarded.evaluate_bind deoptimized]
    refine (keeps_look _).lift.bind ?_
    rintro handle _ rfl
    cases handle with
    | none => exact Guarded.mirrors_pure counted
    | some code =>
      refine (keeps_note _ _ _).lift.bind fun _ _ _ => ?_
      exact (keeps_ask _).lift.bind fun _ _ _ => Guarded.mirrors_pure counted
  case some.alreadyInvalidated =>
    rw [Guarded.evaluate_bind already]
    exact Guarded.mirrors_pure ⟨rfl, Nat.zero_le 1, Nat.zero_le 1, Nat.le_refl 1, Nat.zero_le 1⟩
  case some.stub =>
    rw [Guarded.evaluate_bind skipped]
    exact Guarded.mirrors_pure ⟨rfl, Nat.zero_le 1, Nat.zero_le 1, Nat.zero_le 1, Nat.le_refl 1⟩

/-- What a sweep adds is added to what was there before. -/
theorem Adds.trans {value middle first rest : SweepReport} {more : Nat}
    (before : Adds report bound middle first) (after : Adds middle more value rest) :
    Adds report (bound + more) value (first.merge rest) := by
  obtain ⟨rfl, few⟩ := before
  obtain ⟨rfl, others⟩ := after
  exact ⟨SweepReport.merge_assoc _ _ _, few.merge others⟩

theorem Adds.fits {value result : SweepReport} {more : Nat} (adds : Adds report more value result)
    (fits : report.Fits bound) : value.Fits (bound + more) := by
  obtain ⟨rfl, few⟩ := adds
  exact fits.merge few

theorem Adds.wider {value result : SweepReport} {more : Nat} (adds : Adds report bound value result)
    (wider : bound ≤ more) : Adds report more value result :=
  ⟨adds.1, adds.2.invalidated.trans wider, adds.2.deoptimized.trans wider,
    adds.2.alreadyInvalidated.trans wider, adds.2.stubsSkipped.trans wider⟩

theorem invalidateCodes_mirrors (codeIds : List Nat) (fits : report.Fits bound)
    (room : bound + codeIds.length < 2 ^ 64) :
    Guarded.Mirrors (Whole image) (Adds report codeIds.length) (invalidateCodes codeIds report)
      (Heap.invalidateCodes codeIds) := by
  induction codeIds generalizing report bound with
  | nil => exact Guarded.mirrors_pure ⟨rfl, SweepReport.fits_empty _⟩
  | cons codeId rest ih =>
    rw [List.length_cons] at room
    refine (invalidateCode_mirrors codeId fits (by omega)).bind fun middle first before => ?_
    have onward := ih (before.fits fits) (by omega)
    refine onward.view fun value others after => ?_
    exact (before.trans after).wider (by rw [List.length_cons]; omega)

/-- The same report, with counts that are small. -/
def Counted (bound : Nat) (value result : SweepReport) : Prop :=
  value = result ∧ result.Fits bound

theorem Adds.counted {value result : SweepReport} (adds : Adds {} bound value result) :
    Counted bound value result :=
  ⟨adds.1.trans (SweepReport.empty_merge result), adds.2⟩

theorem invalidateDependents_mirrors {fixture : Fixture} (sound : fixture.Sound)
    (entry : ClassEntry) :
    Guarded.Mirrors (Whole fixture.image) (Counted (2 ^ 31)) (fixture.invalidateDependents entry)
      (Heap.invalidateDependents fixture.image entry) := by
  have read : (fixture.stored.dependentsOf entry.record).run =
      .ok (fixture.image.library.dependentsOf entry.record) :=
    sound.stored.dependentsOf_ok entry.record
  unfold Fixture.invalidateDependents Heap.invalidateDependents
  rw [Guarded.evaluate_bind read]
  cases listed : fixture.image.library.dependentsOf entry.record with
  | error error =>
    refine (keeps_note _ _ _).lift.bind fun _ _ _ => ?_
    exact Guarded.mirrors_pure ⟨rfl, SweepReport.fits_empty _⟩
  | ok dependents =>
    have short := Library.dependentsOf_short listed
    refine (invalidateCodes_mirrors dependents (SweepReport.fits_empty 0) (by omega)).bind ?_
    intro value report adds
    obtain ⟨rfl, few⟩ := (adds.wider (Nat.le_of_lt short)).counted
    dsimp only
    split
    · refine (keeps_note _ _ _).lift.bind fun _ _ _ => ?_
      exact Guarded.mirrors_pure ⟨rfl, few⟩
    · exact Guarded.mirrors_pure ⟨rfl, few⟩

/-- The code ids among some numbered records that belong to a class. -/
def ownedBy (classId : Nat) (records : List (Option OwnedRecord × Nat)) : List Nat :=
  records.filterMap fun (owned, codeId) => if owns classId owned then some codeId else none

theorem invalidateClass_mirrors (classId : Nat) (select : Slot.Phase → Bool)
    {records : List (Option OwnedRecord × Nat)}
    (inside : ∀ record ∈ records, record.2 < image.slotCount) (fits : report.Fits bound)
    (room : bound + records.length < 2 ^ 64) :
    Guarded.Mirrors (Whole image) (Adds report records.length)
      (invalidateClass classId select records report)
      (invalidateSelected select (ownedBy classId records)) := by
  induction records generalizing report bound with
  | nil => exact Guarded.mirrors_pure ⟨rfl, SweepReport.fits_empty _⟩
  | cons record rest ih =>
    obtain ⟨owned, codeId⟩ := record
    rw [List.length_cons] at room
    have within : ∀ record ∈ rest, record.2 < image.slotCount :=
      fun other among => inside other (List.mem_cons_of_mem _ among)
    rw [invalidateClass, ownedBy, List.filterMap_cons]
    dsimp only
    by_cases owner : owns classId owned = true
    · have seen : Guarded.Mirrors (Whole image) (fun slot selected => select slot.phase = selected)
          (look fun state => Trapping.get state.slots codeId)
          (Operation.look fun state => (state.phase? codeId).any select) := by
        refine look_mirrors fun state intact => ?_
        have listed : codeId < state.slots.length := intact.slots ▸ inside _ List.mem_cons_self
        have found := List.getElem?_eq_getElem listed
        exact ⟨_, get_ok found, by rw [State.phase?, found]; rfl⟩
      rw [if_pos owner, if_pos owner, invalidateSelected]
      refine seen.bind ?_
      rintro slot _ rfl
      dsimp only
      cases select slot.phase with
      | false =>
        refine (ih within fits (by omega)).view fun value result adds => ?_
        rw [SweepReport.empty_merge]
        exact adds.wider (Nat.le_succ _)
      | true =>
        refine (invalidateCode_mirrors codeId fits (by omega)).bind fun middle first before => ?_
        have onward := ih within (before.fits fits) (by omega)
        refine onward.view fun value later after => ?_
        exact (before.trans after).wider (by rw [List.length_cons]; omega)
    · rw [if_neg owner, if_neg owner]
      exact (ih within fits (by omega)).weaken fun _ _ adds => adds.wider (Nat.le_succ _)

theorem retireClass_mirrors (classId : Nat) (records : List (Option OwnedRecord × Nat))
    {retired : Nat} (room : retired + records.length < 2 ^ 64) :
    Guarded.Mirrors (Whole image) (fun _ _ => True) (retireClass classId records retired)
      (retireCodes (ownedBy classId records)) := by
  induction records generalizing retired with
  | nil => exact Guarded.mirrors_pure trivial
  | cons record rest ih =>
    obtain ⟨owned, codeId⟩ := record
    rw [List.length_cons] at room
    rw [retireClass, ownedBy, List.filterMap_cons]
    dsimp only
    by_cases owner : owns classId owned = true
    · rw [if_pos owner, if_pos owner, retireCodes]
      refine (changeSlot_keeps codeId fun _ => retire_handle).lift.bind ?_
      rintro outcome _ rfl
      dsimp only
      split
      · refine countInvalidated_keeps.lift.bind fun _ _ _ => ?_
        rw [Guarded.evaluate_bind (add_ok (by omega))]
        exact ih (by omega)
      · exact ih (by omega)
    · rw [if_neg owner, if_neg owner]
      exact ih (by omega)

theorem unbind_keeps (klass : ClassRef) :
    (Operation.alter fun state => state.unbind klass).Keeps (Whole image) :=
  keeps_alter fun _ intact => intact.of_same rfl rfl rfl

end Sweeps

section Departure

variable {fixture : Fixture} (sound : fixture.Sound)
include sound

theorem records_few : fixture.records.zipIdx.length < 2 ^ 32 := by
  rw [List.length_zipIdx, sound.records]
  exact fixture.image.library.header.slotCount.toNat_lt

/-- Every slot of a class whose phase is selected is invalidated without a trap. -/
theorem sweepClass_mirrors (classId : Nat) (select : Slot.Phase → Bool) :
    Guarded.Mirrors (Whole fixture.image) (Counted (2 ^ 32))
      (invalidateClass classId select fixture.records.zipIdx {})
      (Heap.invalidateClass fixture.image classId select) := by
  have few := records_few sound
  have inside : ∀ record ∈ fixture.records.zipIdx, record.2 < fixture.image.slotCount := by
    intro record among
    rw [← sound.records]
    exact (List.mem_zipIdx' among).1
  refine (invalidateClass_mirrors classId select inside (SweepReport.fits_empty 0) (by omega)).weaken ?_
  exact fun _ _ adds => (adds.wider (Nat.le_of_lt few)).counted

/-- Everything that a departing class takes along is counted without a trap. -/
theorem departure_mirrors (entry : ClassEntry) (select : Slot.Phase → Bool)
    {last : SweepReport → Operation Unit} (keeps : ∀ report, (last report).Keeps (Whole fixture.image)) :
    Guarded.Mirrors (Whole fixture.image) (· = ·)
      (do
        let dependents ← fixture.invalidateDependents entry
        let own ← invalidateClass entry.classId select fixture.records.zipIdx {}
        let report ← dependents.merge? own
        last report
        return report)
      (do
        let dependents ← Heap.invalidateDependents fixture.image entry
        let own ← Heap.invalidateClass fixture.image entry.classId select
        last (dependents.merge own)
        return dependents.merge own) := by
  refine (invalidateDependents_mirrors sound entry).bind ?_
  rintro dependents _ ⟨rfl, few⟩
  refine (sweepClass_mirrors sound entry.classId select).bind ?_
  rintro own _ ⟨rfl, others⟩
  rw [Guarded.evaluate_bind (SweepReport.merge_ok few others (by omega))]
  exact (keeps _).lift.bind fun _ _ _ => Guarded.mirrors_pure rfl

theorem entryOf_mirrors (klass : ClassRef) :
    Guarded.Mirrors (Whole fixture.image) (· = ·)
      (look fun state => fixture.entryOf klass state)
      (Operation.look fun state => Heap.entryOf fixture.image state klass) :=
  look_mirrors fun _ intact => ⟨_, sound.entryOf_ok intact klass, rfl⟩

theorem flush_mirrors (klass : ClassRef) :
    Guarded.Mirrors (Whole fixture.image) (· = ·) (fixture.flush klass)
      (Heap.flush fixture.image klass) := by
  refine (entryOf_mirrors sound klass).bind ?_
  rintro entry _ rfl
  cases entry with
  | none => exact Guarded.mirrors_pure rfl
  | some entry =>
    refine (unbind_keeps klass).lift.bind fun _ _ _ => ?_
    exact departure_mirrors sound entry _ fun _ => keeps_note _ _ _

theorem unload_mirrors (klass : ClassRef) :
    Guarded.Mirrors (Whole fixture.image) (· = ·) (fixture.unload klass)
      (Heap.unload fixture.image klass) := by
  refine (entryOf_mirrors sound klass).bind ?_
  rintro entry _ rfl
  refine (unbind_keeps klass).lift.bind fun _ _ _ => ?_
  have cleared : ((Got.updateEach Cell.metaspace fun _ value =>
      pure (if value = klass then none else some value)) : Operation (List (Nat × ClassRef))).Keeps
        (Whole fixture.image) :=
    Action.keeps_updateEach whole_metaspace fun _ _ => Action.keeps_pure _
  refine cleared.lift.bind fun _ _ _ => ?_
  cases entry with
  | none => exact Guarded.mirrors_pure rfl
  | some entry => exact departure_mirrors sound entry _ fun _ => keeps_note _ _ _

end Departure

end Fixture

end Precompiled.Heap
