import Precompiled.Proofs.Heap.Loading
import Precompiled.Proofs.Heap.Questions
import Precompiled.Proofs.Heap.Sweeps

/-! Taking code out of use before an engine whose answers stand in a table. A sweep
invalidates the slots that it is after and touches nothing else; its report counts the
slots that it moved, and the engine is told once of each of them that was executable. -/
namespace Precompiled.Heap

variable {image : Image} {table : Engine.Table} {before middle after : State} {codeId : Nat}
  {step : Slot → Slot} {chosen others : Nat → Prop}

/-! ## Slots -/

theorem Slot.invalidate_eq (slot : Slot) : slot.invalidate.2 =
    if slot.handle.any LinkedCode.isStub then slot else { slot with phase := .invalidated } := by
  obtain ⟨phase, handle, admitted⟩ := slot
  unfold Slot.invalidate
  by_cases isStub : handle.any LinkedCode.isStub = true <;> cases phase <;> simp [isStub]

theorem Slot.retire_eq (slot : Slot) : slot.retire.2 =
    if slot.phase = .unresolved then { slot with phase := .invalidated } else slot := by
  unfold Slot.retire
  split <;> rfl

theorem invalidate_again (slot : Slot) : slot.invalidate.2.invalidate.2 = slot.invalidate.2 := by
  rw [Slot.invalidate_eq slot]
  by_cases isStub : slot.handle.any LinkedCode.isStub = true <;> simp [Slot.invalidate_eq, isStub]

theorem retire_again (slot : Slot) : slot.retire.2.retire.2 = slot.retire.2 := by
  rw [Slot.retire_eq slot]
  by_cases unresolved : slot.phase = .unresolved <;> simp [Slot.retire_eq, unresolved]

/-- A step was made at the chosen slots, and nothing else happened. -/
structure Marked (step : Slot → Slot) (chosen : Nat → Prop) (before after : State) : Prop where
  frame : after = { before with slots := after.slots }
  marked : ∀ codeId, chosen codeId → after.slots[codeId]? = before.slots[codeId]?.map step
  spared : ∀ codeId, ¬chosen codeId → after.slots[codeId]? = before.slots[codeId]?

namespace Marked

theorem idle (never : ∀ codeId, ¬chosen codeId) (state : State) : Marked step chosen state state where
  frame := rfl
  marked codeId member := absurd member (never codeId)
  spared _ _ := rfl

theorem congr (marked : Marked step chosen before after)
    (same : ∀ codeId, chosen codeId ↔ others codeId) : Marked step others before after where
  frame := marked.frame
  marked codeId member := marked.marked codeId ((same codeId).mpr member)
  spared codeId absent := marked.spared codeId fun member => absent ((same codeId).mp member)

/-- It does not matter how often the step is made at a slot. -/
theorem trans (again : ∀ slot, step (step slot) = step slot) (early : Marked step chosen before middle)
    (late : Marked step others middle after) :
    Marked step (fun codeId => chosen codeId ∨ others codeId) before after where
  frame := by rw [late.frame, early.frame]
  marked codeId member := by
    have twice : step ∘ step = step := funext again
    by_cases first : chosen codeId <;> by_cases second : others codeId
    · rw [late.marked codeId second, early.marked codeId first, Option.map_map, twice]
    · rw [late.spared codeId second, early.marked codeId first]
    · rw [late.marked codeId second, early.spared codeId first]
    · exact absurd member (not_or.mpr ⟨first, second⟩)
  spared codeId absent := by
    obtain ⟨first, second⟩ := not_or.mp absent
    rw [late.spared codeId second, early.spared codeId first]

/-- What a step makes of the chosen slots is settled by which they are. -/
theorem unique {last : State} (one : Marked step chosen before after)
    (other : Marked step chosen before last) : after = last := by
  have slots : after.slots = last.slots := by
    refine List.ext_getElem? fun codeId => ?_
    by_cases member : chosen codeId
    · rw [one.marked codeId member, other.marked codeId member]
    · rw [one.spared codeId member, other.spared codeId member]
  rw [one.frame, other.frame, slots]

/-- Only the slots that there are matter, not what else a state holds. -/
theorem elsewhere (marked : Marked step chosen before after) {start : State}
    (same : start.slots = before.slots) :
    Marked step chosen start { start with slots := after.slots } where
  frame := rfl
  marked codeId member := by rw [same, ← marked.marked codeId member]
  spared codeId absent := by rw [same, ← marked.spared codeId absent]

/-- Slots that a step does not change count as chosen or not. -/
theorem extend (marked : Marked step chosen before after) (more : ∀ codeId, chosen codeId → others codeId)
    (fixed : ∀ codeId slot, others codeId → ¬chosen codeId → before.slots[codeId]? = some slot →
      step slot = slot) : Marked step others before after where
  frame := marked.frame
  marked codeId member := by
    by_cases already : chosen codeId
    · exact marked.marked codeId already
    · rw [marked.spared codeId already]
      cases there : before.slots[codeId]? with
      | none => rfl
      | some slot => rw [Option.map_some, fixed codeId slot member already there]
  spared codeId absent := marked.spared codeId fun member => absent (more codeId member)

/-- What one slot is afterwards. -/
theorem found (marked : Marked step chosen before after) {slot : Slot}
    (there : before.slots[codeId]? = some slot) :
    after.slots[codeId]? = some (step slot) ∧ chosen codeId ∨
      after.slots[codeId]? = some slot ∧ ¬chosen codeId := by
  by_cases member : chosen codeId
  · exact .inl ⟨by rw [marked.marked codeId member, there, Option.map_some], member⟩
  · exact .inr ⟨by rw [marked.spared codeId member, there], member⟩

theorem absent (marked : Marked step chosen before after)
    (outside : before.slots[codeId]? = none) : after.slots[codeId]? = none := by
  by_cases member : chosen codeId
  · rw [marked.marked codeId member, outside, Option.map_none]
  · rw [marked.spared codeId member, outside]

end Marked

/-- A change of one slot marks this slot. -/
theorem marked_changeSlot (table : Engine.Table) {α : Type} (change : Slot → α × Slot)
    (codeId : Nat) :
    Yields table (Operation.changeSlot codeId change) fun before _ after =>
      Marked (fun slot => (change slot).2) (· = codeId) before after := by
  intro cell
  rw [Operation.finish_changeSlot]
  cases found : cell.state.slots[codeId]? with
  | none =>
    refine ⟨rfl, ?_, fun _ _ => rfl⟩
    rintro other rfl
    simp [found]
  | some slot =>
    obtain ⟨inside, -⟩ := List.getElem?_eq_some_iff.mp found
    refine ⟨rfl, ?_, ?_⟩
    · rintro other rfl
      simp [found, List.getElem?_set_self inside]
    · intro other apart
      exact List.getElem?_set_ne (Ne.symm apart)

/-- Retiring slots asks nothing. -/
theorem retireCodes_marks (table : Engine.Table) (codeIds : List Nat) (cell : Cell) :
    Marked (fun slot => slot.retire.2) (· ∈ codeIds) cell.state
        ((retireCodes codeIds).finish table cell).2.state ∧
      (retireCodes codeIds).asked table cell = [] := by
  induction codeIds generalizing cell with
  | nil => exact ⟨.idle (by simp) _, rfl⟩
  | cons codeId rest ih =>
    have first := marked_changeSlot table Slot.retire codeId cell
    rw [retireCodes, Operation.finish_bind, Operation.asked_bind, Operation.asked_changeSlot]
    generalize Operation.finish table _ cell = outcome at first ⊢
    obtain ⟨result, middle⟩ := outcome
    have onward : ∀ later : Cell, later.state = middle.state →
        Marked (fun slot => slot.retire.2) (· ∈ codeId :: rest) cell.state
            ((retireCodes rest).finish table later).2.state ∧
          [] ++ (retireCodes rest).asked table later = [] := by
      intro later same
      obtain ⟨marks, silent⟩ := ih later
      rw [same] at marks
      exact ⟨(first.trans retire_again marks).congr (by simp), by rw [silent]; rfl⟩
    dsimp only
    split
    · simp only [Operation.finish_bind, Operation.asked_bind, countInvalidated,
        Operation.finish_count, Operation.asked_count, List.nil_append]
      exact onward _ rfl
    · exact onward middle rfl

/-! ## Books -/

/-- Slots stay as they are, or they are invalidated and keep their handle. -/
def State.Abandons (before after : State) : Prop :=
  ∀ codeId, after.slot? codeId = before.slot? codeId ∨ ∃ phase handle,
    before.slot? codeId = some (phase, handle) ∧ after.slot? codeId = some (.invalidated, handle)

/-- A slot goes out of use. -/
def Falls (before after : State) (codeId : Nat) : Prop :=
  before.phase? codeId ≠ some .invalidated ∧ after.phase? codeId = some .invalidated

/-- A slot that was executable goes out of use. -/
def Departs (before after : State) (codeId : Nat) : Prop :=
  before.phase? codeId = some .resolved ∧ after.phase? codeId = some .invalidated

/-- How the engine is told that the code of a slot goes out of use. -/
def State.notice (state : State) (codeId : Nat) : Option Engine.Request :=
  (state.slots[codeId]?.bind Slot.handle).map .deoptimize

namespace State.Abandons

theorem trans (early : before.Abandons middle) (late : middle.Abandons after) :
    before.Abandons after := by
  intro codeId
  rcases late codeId with same | ⟨phase, handle, there, gone⟩
  · rw [same]
    exact early codeId
  · rcases early codeId with same | ⟨earlier, kept, seen, fell⟩
    · exact .inr ⟨phase, handle, same ▸ there, gone⟩
    · obtain ⟨-, rfl⟩ := Prod.mk.inj (Option.some.inj (there.symm.trans fell))
      exact .inr ⟨earlier, handle, seen, gone⟩

theorem phase (abandons : before.Abandons after) (codeId : Nat) :
    after.phase? codeId = before.phase? codeId ∨ after.phase? codeId = some .invalidated := by
  rw [phase?_of_slot?, phase?_of_slot?]
  rcases abandons codeId with same | ⟨phase, handle, -, gone⟩
  · exact .inl (by rw [same])
  · exact .inr (by rw [gone]; rfl)

theorem falls_iff (early : before.Abandons middle) (late : middle.Abandons after) :
    Falls before after codeId ↔ Falls before middle codeId ∨ Falls middle after codeId := by
  unfold Falls
  rcases early.phase codeId with first | first <;> rcases late.phase codeId with second | second <;>
    simp [first, second]

theorem departs_iff (early : before.Abandons middle) (late : middle.Abandons after) :
    Departs before after codeId ↔ Departs before middle codeId ∨ Departs middle after codeId := by
  unfold Departs
  rcases early.phase codeId with first | first <;> rcases late.phase codeId with second | second <;>
    simp [first, second]
  tauto

/-- The engine is told the same whether it is told before or after. -/
theorem notice (abandons : before.Abandons after) : after.notice = before.notice := by
  funext codeId
  have handles : ∀ state : State,
      state.slots[codeId]?.bind Slot.handle = (state.slot? codeId).bind Prod.snd := by
    intro state
    rw [State.slot?, Option.bind_map]
    rfl
  rw [State.notice, State.notice, handles, handles]
  rcases abandons codeId with same | ⟨phase, handle, there, gone⟩
  · rw [same]
  · rw [there, gone]
    rfl

end State.Abandons

/-- A report and what was asked agree with what became of the slots. -/
structure Booked (before : State) (asked : List Engine.Request) (report : SweepReport)
    (after : State) : Prop where
  abandons : before.Abandons after
  invalidated : ∃ codeIds, Enumerates codeIds (Falls before after) ∧
    codeIds.length = report.invalidated
  deoptimized : ∃ codeIds, Enumerates codeIds (Departs before after) ∧
    codeIds.length = report.deoptimized ∧ asked = codeIds.filterMap before.notice

namespace Booked

variable {asked further : List Engine.Request} {report next : SweepReport}

theorem still (state : State) (uncounted : report.invalidated = 0 ∧ report.deoptimized = 0) :
    Booked state [] report state where
  abandons _ := .inl rfl
  invalidated := ⟨[], .nil fun _ fell => fell.1 fell.2, uncounted.1.symm⟩
  deoptimized := by
    refine ⟨[], .nil fun codeId departed => ?_, uncounted.2.symm, rfl⟩
    cases departed.1.symm.trans departed.2

/-- Books are about slots, not about what else a state holds. -/
theorem elsewhere (booked : Booked before asked report after) {start : State}
    (same : start.slots = before.slots) : Booked start asked report after := by
  have slot : start.slot? = before.slot? := by
    funext codeId
    rw [State.slot?, State.slot?, same]
  have phase : start.phase? = before.phase? := by
    funext codeId
    rw [State.phase?, State.phase?, same]
  have notice : start.notice = before.notice := by
    funext codeId
    rw [State.notice, State.notice, same]
  have falls : Falls start after = Falls before after := by
    funext codeId
    rw [Falls, Falls, phase]
  have departs : Departs start after = Departs before after := by
    funext codeId
    rw [Departs, Departs, phase]
  exact ⟨fun codeId => slot ▸ booked.abandons codeId, falls ▸ booked.invalidated,
    departs ▸ notice ▸ booked.deoptimized⟩

/-- The engine is told of code that goes out of use, and asked nothing else. -/
theorem told (booked : Booked before asked report after) :
    ∀ request ∈ asked, ∃ code, request = .deoptimize code := by
  obtain ⟨codeIds, -, -, told⟩ := booked.deoptimized
  intro request member
  rw [told] at member
  obtain ⟨codeId, -, notice⟩ := List.mem_filterMap.mp member
  obtain ⟨code, -, rfl⟩ := Option.map_eq_some_iff.mp notice
  exact ⟨code, rfl⟩

/-- The engine has no choice how to answer that. -/
theorem plain (booked : Booked before asked report after) :
    ∀ request ∈ asked, Subsingleton (Engine.signature.Answer request) := by
  intro request member
  obtain ⟨code, rfl⟩ := booked.told request member
  exact inferInstanceAs (Subsingleton Unit)

/-- Books on one course of events agree, up to the order in which the engine is told. -/
theorem unique (first : Booked before asked report after)
    (second : Booked before further next after) : report.invalidated = next.invalidated ∧
      report.deoptimized = next.deoptimized ∧ asked.Perm further := by
  obtain ⟨fallen, named, count⟩ := first.invalidated
  obtain ⟨others, again, number⟩ := second.invalidated
  obtain ⟨departed, listed, total, told⟩ := first.deoptimized
  obtain ⟨gone, twice, sum, onward⟩ := second.deoptimized
  have same := listed.perm twice
  refine ⟨?_, ?_, ?_⟩
  · rw [← count, ← number, (named.perm again).length_eq]
  · rw [← total, ← sum, same.length_eq]
  · rw [told, onward]
    exact same.filterMap before.notice

/-- Reports of sweeps in a row add up. -/
theorem merge (first : Booked before asked report middle) (second : Booked middle further next after) :
    Booked before (asked ++ further) (report.merge next) after where
  abandons := first.abandons.trans second.abandons
  invalidated := by
    obtain ⟨early, named, counted⟩ := first.invalidated
    obtain ⟨late, others, rest⟩ := second.invalidated
    refine ⟨early ++ late, (named.append others ?_).congr fun codeId => ?_, ?_⟩
    · exact fun codeId fell again => again.1 fell.2
    · exact (first.abandons.falls_iff second.abandons).symm
    · rw [List.length_append, counted, rest]
      rfl
  deoptimized := by
    obtain ⟨early, named, counted, told⟩ := first.deoptimized
    obtain ⟨late, others, rest, onward⟩ := second.deoptimized
    refine ⟨early ++ late, (named.append others ?_).congr fun codeId => ?_, ?_, ?_⟩
    · intro codeId departed again
      cases departed.2.symm.trans again.1
    · exact (first.abandons.departs_iff second.abandons).symm
    · rw [List.length_append, counted, rest]
      rfl
    · rw [List.filterMap_append, told, onward, first.abandons.notice]

end Booked

/-! ## Sweeps -/

/-- The condemned slots were invalidated, nothing else happened, and the books are
right. -/
structure Withdrawal (condemned : Nat → Prop) (before : State) (asked : List Engine.Request)
    (report : SweepReport) (after : State) : Prop where
  marked : Marked (fun slot => slot.invalidate.2) condemned before after
  booked : Booked before asked report after

namespace Withdrawal

variable {condemned also : Nat → Prop} {asked further : List Engine.Request}
  {report next : SweepReport}

theorem idle (never : ∀ codeId, ¬condemned codeId) (state : State) :
    Withdrawal condemned state [] {} state :=
  ⟨.idle never state, .still state ⟨rfl, rfl⟩⟩

theorem congr (withdrawal : Withdrawal condemned before asked report after)
    (same : ∀ codeId, condemned codeId ↔ also codeId) :
    Withdrawal also before asked report after :=
  ⟨withdrawal.marked.congr same, withdrawal.booked⟩

theorem merge (first : Withdrawal condemned before asked report middle)
    (second : Withdrawal also middle further next after) :
    Withdrawal (fun codeId => condemned codeId ∨ also codeId) before (asked ++ further)
      (report.merge next) after :=
  ⟨first.marked.trans invalidate_again second.marked, first.booked.merge second.booked⟩

end Withdrawal

/-- A sweep takes executable code out of use if it is condemned and no stub. -/
theorem Withdrawal.departs {condemned : Nat → Prop} {asked : List Engine.Request}
    {report : SweepReport} {code : LinkedCode}
    (withdrawal : Withdrawal condemned before asked report after)
    (executable : before.executable? codeId = some code) :
    Departs before after codeId ↔ condemned codeId ∧ code.isStub = false := by
  obtain ⟨slot, found, phase, held⟩ := executable?_some.mp executable
  rcases withdrawal.marked.found found with ⟨there, member⟩ | ⟨there, absent⟩
  · by_cases isStub : code.isStub = true
    · simp [Departs, State.phase?, there, Slot.invalidate, held, isStub, phase]
    · simp [Departs, State.phase?, found, there, Slot.invalidate, held, isStub, phase, member]
  · simp [Departs, State.phase?, there, phase, absent]

/-- Answered from a table, the operation withdraws the slots that are condemned when it
begins. -/
def Withdraws (table : Engine.Table) (operation : Operation SweepReport)
    (condemned : State → Nat → Prop) : Prop :=
  ∀ cell, Withdrawal (condemned cell.state) cell.state (operation.asked table cell)
    (operation.finish table cell).1 (operation.finish table cell).2.state

/-- One slot was invalidated that had not been before. -/
theorem booked_invalidate {slot : Slot} (marked : Marked (fun slot => slot.invalidate.2) (· = codeId) before after)
    (found : before.slots[codeId]? = some slot) (method : slot.handle.any LinkedCode.isStub = false)
    (alive : slot.phase ≠ .invalidated) {asked : List Engine.Request} {report : SweepReport}
    (invalidated : report.invalidated = 1)
    (deoptimized : (if slot.phase = .resolved then [codeId] else []).length = report.deoptimized)
    (told : asked = (if slot.phase = .resolved then [codeId] else []).filterMap before.notice) :
    Booked before asked report after := by
  have fell : slot.invalidate.2 = { slot with phase := .invalidated } := by
    unfold Slot.invalidate
    cases phase : slot.phase <;> simp_all
  have gone : after.slots[codeId]? = some { slot with phase := .invalidated } := by
    rw [marked.marked codeId rfl, found, Option.map_some, fell]
  have others : ∀ other, other ≠ codeId → after.phase? other = before.phase? other := by
    intro other apart
    rw [State.phase?, marked.spared other apart, State.phase?]
  have before' : before.phase? codeId = some slot.phase := by simp [State.phase?, found]
  have after' : after.phase? codeId = some .invalidated := by simp [State.phase?, gone]
  refine ⟨fun other => ?_, ⟨[codeId], ⟨List.nodup_singleton _, fun other => ?_⟩, invalidated.symm⟩,
    ⟨_, ⟨?_, fun other => ?_⟩, deoptimized, told⟩⟩
  · by_cases same : other = codeId
    · subst same
      exact .inr ⟨slot.phase, slot.handle, slot?_eq_some.mpr ⟨slot, found, rfl, rfl⟩,
        slot?_eq_some.mpr ⟨_, gone, rfl, rfl⟩⟩
    · exact .inl (by rw [State.slot?, marked.spared other same, State.slot?])
  · by_cases same : other = codeId
    · subst same
      simp [Falls, before', after', alive]
    · simp only [List.mem_singleton, same, false_iff, Falls, others other same]
      exact fun fell => fell.1 fell.2
  · split <;> simp
  · by_cases same : other = codeId
    · subst same
      by_cases resolved : slot.phase = .resolved <;> simp [Departs, before', after', resolved]
    · have apart : other ∉ if slot.phase = .resolved then [codeId] else [] := by
        split <;> simp [same]
      simp only [apart, false_iff, Departs, others other same]
      rintro ⟨resolved, invalidated⟩
      cases resolved.symm.trans invalidated

theorem invalidateCode_withdraws (table : Engine.Table) (codeId : Nat) :
    Withdraws table (invalidateCode codeId) fun _ other => other = codeId := by
  intro cell
  have marked := marked_changeSlot table Slot.invalidate codeId cell
  rw [invalidateCode, Operation.finish_bind, Operation.asked_bind, Operation.asked_changeSlot,
    List.nil_append]
  cases found : cell.state.slots[codeId]? with
  | none =>
    rw [Operation.finish_changeSlot, found] at marked ⊢
    exact ⟨marked, .still _ ⟨rfl, rfl⟩⟩
  | some slot =>
    have same : ∀ later : Slot, later = slot →
        { cell.state with slots := cell.state.slots.set codeId later } = cell.state := by
      rintro later rfl
      obtain ⟨inside, rfl⟩ := List.getElem?_eq_some_iff.mp found
      rw [List.set_getElem_self inside]
    rw [Operation.finish_changeSlot, found] at marked ⊢
    dsimp only at marked ⊢
    by_cases isStub : slot.handle.any LinkedCode.isStub = true
    · have skipped : slot.invalidate = (.stub, slot) := by simp [Slot.invalidate, isStub]
      rw [skipped, same slot rfl] at marked ⊢
      exact ⟨marked, .still _ ⟨rfl, rfl⟩⟩
    have method : slot.handle.any LinkedCode.isStub = false := by simpa using isStub
    cases phase : slot.phase with
    | invalidated =>
      have skipped : slot.invalidate = (.alreadyInvalidated, slot) := by
        simp [Slot.invalidate, isStub, phase]
      rw [skipped, same slot rfl] at marked ⊢
      exact ⟨marked, .still _ ⟨rfl, rfl⟩⟩
    | unresolved =>
      have fell : slot.invalidate = (.invalidated false, { slot with phase := .invalidated }) := by
        simp [Slot.invalidate, isStub, phase]
      rw [fell] at marked ⊢
      refine ⟨marked, booked_invalidate marked found method (by simp [phase]) rfl ?_ ?_⟩
      · simp [phase]
      · simp [phase, countInvalidated]
    | resolved =>
      have fell : slot.invalidate = (.invalidated true, { slot with phase := .invalidated }) := by
        simp [Slot.invalidate, isStub, phase]
      obtain ⟨inside, -⟩ := List.getElem?_eq_some_iff.mp found
      rw [fell] at marked ⊢
      dsimp only at marked ⊢
      simp only [Operation.finish_bind, Operation.asked_bind, countInvalidated,
        Operation.finish_count, Operation.asked_count, Operation.finish_look,
        Operation.asked_look, List.nil_append, List.getElem?_set_self inside, Option.bind_some]
      have told : ∀ asked, asked = (slot.handle.map Engine.Request.deoptimize).toList →
          Booked cell.state asked { invalidated := 1, deoptimized := 1 }
            { cell.state with
              slots := cell.state.slots.set codeId { slot with phase := .invalidated } } := by
        rintro asked rfl
        refine booked_invalidate marked found method (by simp [phase]) rfl (by simp [phase]) ?_
        cases held : slot.handle <;> simp [phase, State.notice, found, held]
      generalize slot.handle = held at told marked ⊢
      cases held with
      | none => exact ⟨marked, told [] rfl⟩
      | some code => exact ⟨marked, told [.deoptimize code] rfl⟩

/-- A sweep invalidates the slots that it goes through. -/
theorem invalidateCodes_withdraws (table : Engine.Table) (codeIds : List Nat) :
    Withdraws table (invalidateCodes codeIds) fun _ codeId => codeId ∈ codeIds := by
  induction codeIds with
  | nil => exact fun cell => .idle (by simp) cell.state
  | cons codeId rest ih =>
    intro cell
    have both := (invalidateCode_withdraws table codeId cell).merge (ih _)
    rw [invalidateCodes]
    simp only [Operation.finish_bind, Operation.asked_bind, Operation.finish_pure,
      Operation.asked_pure, List.append_nil]
    exact both.congr (by simp)

theorem invalidateDependents_withdraws (table : Engine.Table) (image : Image) (entry : ClassEntry) :
    Withdraws table (invalidateDependents image entry) fun _ codeId => image.Depends entry codeId := by
  intro cell
  unfold invalidateDependents Image.Depends
  cases listed : image.library.dependentsOf entry.record with
  | error error => exact .idle (by simp) cell.state
  | ok dependents =>
    have swept : Withdrawal (fun codeId => ∃ others,
        Except.ok dependents = (Except.ok others : Except Error _) ∧ codeId ∈ others) _ _ _ _ :=
      (invalidateCodes_withdraws table dependents cell).congr (by simp)
    rw [Operation.finish_bind, Operation.asked_bind]
    generalize (invalidateCodes dependents).finish table cell = outcome at swept ⊢
    split <;> simpa using swept

/-- Slots whose phase is not selected when their turn comes were not selected in the
beginning: what a sweep does to one slot, it does not do to another. -/
theorem invalidateSelected_withdraws (table : Engine.Table) (select : Slot.Phase → Bool)
    (codeIds : List Nat) :
    Withdraws table (invalidateSelected select codeIds) fun state codeId =>
      codeId ∈ codeIds ∧ (state.phase? codeId).any select = true := by
  induction codeIds with
  | nil => exact fun cell => .idle (by simp) cell.state
  | cons codeId rest ih =>
    intro cell
    rw [invalidateSelected, Operation.finish_bind, Operation.asked_bind, Operation.finish_look,
      Operation.asked_look, List.nil_append]
    dsimp only
    by_cases selected : (cell.state.phase? codeId).any select = true
    · rw [if_pos selected]
      have first := invalidateCode_withdraws table codeId cell
      have both := first.merge (ih _)
      simp only [Operation.finish_bind, Operation.asked_bind, Operation.finish_pure,
        Operation.asked_pure, List.append_nil]
      refine both.congr fun other => ?_
      by_cases here : other = codeId
      · subst here
        simp [selected]
      · have spared := congrArg (Option.map Slot.phase) (first.marked.spared other here)
        simp only [State.phase?, spared]
        simp [here]
    · rw [if_neg selected]
      have none : Withdrawal (fun _ => False) cell.state [] {} cell.state := .idle (fun _ => id) _
      have both := none.merge (ih cell)
      simp only [Operation.finish_bind, Operation.asked_bind, Operation.finish_pure,
        Operation.asked_pure, List.append_nil]
      refine both.congr fun other => ?_
      by_cases here : other = codeId
      · subst here
        simp [selected]
      · simp [here]

/-! ## Misses -/

theorem findClass_finish (table : Engine.Table) (image : Image) (name : String) (cell : Cell) :
    ((findClass image name).finish table cell).1 = (lookupClass image name).toOption.join ∧
      ((findClass image name).finish table cell).2.state = cell.state := by
  unfold findClass
  cases lookupClass image name <;> exact ⟨rfl, rfl⟩

theorem findClass_asked (table : Engine.Table) (image : Image) (name : String) (cell : Cell) :
    (findClass image name).asked table cell = [] := by
  unfold findClass
  cases lookupClass image name <;> rfl

/-- The dependents of a class were swept, and then its own code was retired. -/
def Casts (image : Image) (entry : ClassEntry) (before : State) (asked : List Engine.Request)
    (after : State) : Prop :=
  ∃ middle report, Withdrawal (image.Depends entry) before asked report middle ∧
    Marked (fun slot => slot.retire.2) (· ∈ image.codesOf entry.classId) middle after

/-- A class that the blob knows in another shape is cast out; other misses change
nothing. -/
theorem afterMiss_casts (table : Engine.Table) (image : Image) (view : ClassView) (miss : Miss)
    (cell : Cell) :
    (∃ entry, isShapeMiss miss = true ∧ lookupClass image view.name = .ok (some entry) ∧
      Casts image entry cell.state ((afterMiss image view miss).asked table cell)
        ((afterMiss image view miss).finish table cell).2.state) ∨
    (∀ entry, isShapeMiss miss = true → lookupClass image view.name ≠ .ok (some entry)) ∧
      ((afterMiss image view miss).finish table cell).2.state = cell.state ∧
      (afterMiss image view miss).asked table cell = [] := by
  unfold afterMiss
  cases isShapeMiss miss with
  | false => exact .inr ⟨fun _ impossible => (Bool.false_ne_true impossible).elim, rfl, rfl⟩
  | true =>
    rw [if_pos rfl, Operation.finish_bind, Operation.asked_bind, findClass_asked]
    obtain ⟨found, same⟩ := findClass_finish table image view.name cell
    generalize Operation.finish table _ cell = outcome at found same ⊢
    obtain ⟨result, middle⟩ := outcome
    dsimp only at found same
    subst found
    rw [← same]
    rcases lookupClass image view.name with _ | _ | entry
    · exact .inr ⟨by simp, rfl, rfl⟩
    · exact .inr ⟨by simp, rfl, rfl⟩
    · have known : (Except.ok (some entry) : Except Error (Option ClassEntry)).toOption.join =
          some entry := rfl
      rw [known]
      dsimp only
      rw [Operation.finish_bind, Operation.asked_bind]
      have swept := invalidateDependents_withdraws table image entry middle
      generalize Operation.finish table _ middle = outcome at swept ⊢
      obtain ⟨marked, silent⟩ := retireCodes_marks table (image.codesOf entry.classId) outcome.2
      rw [retireClass, silent, List.nil_append, List.append_nil]
      exact .inl ⟨entry, rfl, rfl, _, _, swept, marked⟩

end Precompiled.Heap
