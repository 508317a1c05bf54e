import Precompiled.Proofs.Heap.Misses

/-! Taking code out of use in any order. A live class that goes is found through the
one metaspace slot that holds it, whether it is still bound or not. So what is left of a
heap depends only on which calls there were: neither on the order they came in, nor on
how often each of them came. -/
namespace Precompiled.Heap

open Blob

variable {image : Image} {table : Engine.Table} {before middle after : State} {klass : ClassRef}
  {entry : ClassEntry} {codeId : Nat}

/-! ## Calls -/

/-- The calls that take code out of use for a live class or for a name. -/
inductive Revocation where
  | sweep (name : String)
  | flush (klass : ClassRef)
  | unload (klass : ClassRef)
  deriving DecidableEq, Repr

namespace Revocation

def call : Revocation → Call
  | sweep name => .sweep name
  | flush klass => .flush klass
  | unload klass => .unload klass

def perform (image : Image) : Revocation → Operation SweepReport
  | sweep name => Heap.sweep image name
  | flush klass => Heap.flush image klass
  | unload klass => Heap.unload image klass

/-- The live class that is redefined or unloaded. -/
def klass? : Revocation → Option ClassRef
  | sweep _ => none
  | flush klass => some klass
  | unload klass => some klass

end Revocation

/-- Carries out calls one after the other, and adds up their reports. -/
def revokeAll (image : Image) : List Revocation → Operation SweepReport
  | [] => return {}
  | revocation :: rest => do
    let report ← revocation.perform image
    return report.merge (← revokeAll image rest)

theorem condemns_sweep {name : String} : Condemns image before (.sweep name) codeId ↔
    ∃ entry, lookupClass image name = .ok (some entry) ∧ image.Depends entry codeId := by
  constructor
  · rintro ⟨found, depends⟩
    exact ⟨_, found, depends⟩
  · rintro ⟨entry, found, depends⟩
    exact .swept found depends

theorem condemns_flush : Condemns image before (.flush klass) codeId ↔
    ∃ entry, entryOf image before klass = some entry ∧ (image.Depends entry codeId ∨
      image.Assigns codeId entry.classId ∧ before.phase? codeId = some .resolved) := by
  constructor
  · intro condemned
    cases condemned with
    | flushed depends =>
      obtain ⟨entry, known, depends⟩ := isDependent_iff.mp depends
      exact ⟨entry, known, .inl depends⟩
    | redefined known own resolved => exact ⟨_, known, .inr ⟨own, resolved⟩⟩
  · rintro ⟨entry, known, depends | ⟨own, resolved⟩⟩
    · exact .flushed (isDependent_iff.mpr ⟨entry, known, depends⟩)
    · exact .redefined known own resolved

theorem condemns_unload : Condemns image before (.unload klass) codeId ↔
    ∃ entry, entryOf image before klass = some entry ∧
      (image.Depends entry codeId ∨ image.Assigns codeId entry.classId) := by
  constructor
  · intro condemned
    cases condemned with
    | unloaded depends =>
      obtain ⟨entry, known, depends⟩ := isDependent_iff.mp depends
      exact ⟨entry, known, .inl depends⟩
    | retired known own => exact ⟨_, known, .inr own⟩
  · rintro ⟨entry, known, depends | own⟩
    · exact .unloaded (isDependent_iff.mpr ⟨entry, known, depends⟩)
    · exact .retired known own

/-! ## Where a class is found -/

/-- No two classes of the blob have one metaspace slot. -/
def Image.Apart (image : Image) : Prop :=
  ∀ entry other index, image.classEntry? entry.classId = some entry →
    image.classEntry? other.classId = some other →
    natural? entry.record.gotIndex = some index → natural? other.record.gotIndex = some index →
    entry = other

/-- No live class is in two metaspace slots. -/
def State.OneSeat (state : State) : Prop :=
  ∀ klass index other, state.metaspace.get index = some klass →
    state.metaspace.get other = some klass → index = other

theorem classOfSlot_of_gotIndex (apart : image.Apart) {index : Nat}
    (present : image.classEntry? entry.classId = some entry)
    (slot : natural? entry.record.gotIndex = some index) : image.classOfSlot? index = some entry := by
  have known : ∀ other ∈ (List.range image.classCount).filterMap image.classEntry?,
      image.classEntry? other.classId = some other := by
    intro other member
    obtain ⟨classId, -, found⟩ := List.mem_filterMap.mp member
    rwa [classEntry_number found]
  have member : entry ∈ (List.range image.classCount).filterMap image.classEntry? :=
    List.mem_filterMap.mpr
      ⟨entry.classId, List.mem_range.mpr (classEntry_read present).1, present⟩
  cases found : image.classOfSlot? index with
  | none =>
    have never := List.find?_eq_none.mp found entry member
    simp [slot] at never
  | some other =>
    have fits : natural? other.record.gotIndex = some index := by
      simpa using List.find?_some found
    rw [apart entry other index present (known other (List.mem_of_find?_eq_some found)) slot fits]

/-- A live class is known through the slot that holds it, bound or not. -/
theorem entryOf_iff (apart : image.Apart) (seats : Seats image before) (oneSeat : before.OneSeat) :
    entryOf image before klass = some entry ↔
      ∃ index, before.metaspace.get index = some klass ∧ image.classOfSlot? index = some entry := by
  unfold entryOf
  cases bound : boundEntry image before klass with
  | some found =>
    obtain ⟨classId, binding, present⟩ := Option.bind_eq_some_iff.mp bound
    obtain ⟨owner, index, loader, known, slot, held, -⟩ := seats.seated klass classId binding
    obtain rfl := Option.some.inj (present.symm.trans known)
    rw [← classEntry_number present] at present
    have own := classOfSlot_of_gotIndex apart present slot
    constructor
    · rintro ⟨⟩
      exact ⟨index, held, own⟩
    · rintro ⟨other, there, same⟩
      obtain rfl := oneSeat klass index other held there
      exact own.symm.trans same
  | none =>
    cases found : before.metaspace.resolved.find? fun slot => slot.2 = klass with
    | none =>
      refine ⟨nofun, ?_⟩
      rintro ⟨index, held, -⟩
      have never := List.find?_eq_none.mp found (index, klass) (Got.mem_resolved.mpr held)
      simp at never
    | some seat =>
      obtain ⟨index, seen⟩ := seat
      obtain rfl : seen = klass := by simpa using List.find?_some found
      have held := Got.mem_resolved.mp (List.mem_of_find?_eq_some found)
      constructor
      · intro same
        exact ⟨index, held, same⟩
      · rintro ⟨other, there, same⟩
        obtain rfl := oneSeat seen index other held there
        exact same

/-! ## What is left -/

/-- Some of the calls condemns the code of the slot. -/
def Condemned (image : Image) (calls : List Revocation) (state : State) (codeId : Nat) : Prop :=
  ∃ revocation ∈ calls, Condemns image state revocation.call codeId

/-- What calls clear besides slots: of each binding and of each metaspace slot it is said
by the calls whether they take it away. -/
structure Cleared (calls : List Revocation) (before after : State) : Prop where
  frame : after = { before with
    slots := after.slots, metaspace := after.metaspace, bindings := after.bindings }
  bindings : after.bindings = before.bindings.filter fun binding =>
    some binding.1 ∉ calls.map Revocation.klass?
  size : after.metaspace.size = before.metaspace.size
  metaspace : ∀ index, after.metaspace.get index =
    (before.metaspace.get index).filter fun klass => .unload klass ∉ calls

/-- What calls leave of a state. Which slots they take away is said by the state in the
beginning. -/
structure Leftover (image : Image) (calls : List Revocation) (before after : State) : Prop
    extends Cleared calls before after where
  slots : Marked (fun slot => slot.invalidate.2) (Condemned image calls before) before
    { before with slots := after.slots }

namespace Leftover

variable {calls more : List Revocation}

theorem nil (state : State) : Leftover image [] state state where
  frame := rfl
  slots := .idle (by simp [Condemned]) state
  bindings := by simp
  size := rfl
  metaspace index := by cases state.metaspace.get index <;> simp [Option.filter]

theorem congr (leftover : Leftover image calls before after)
    (same : ∀ revocation, revocation ∈ calls ↔ revocation ∈ more) :
    Leftover image more before after where
  frame := leftover.frame
  slots := leftover.slots.congr fun codeId => by simp [Condemned, same]
  bindings := by simpa only [List.mem_map, same] using leftover.bindings
  size := leftover.size
  metaspace := by simpa only [same] using leftover.metaspace

/-- What is left is settled by what the calls were. -/
theorem unique {last : State} (one : Leftover image calls before after)
    (other : Leftover image calls before last) : after = last := by
  have marked : { before with slots := after.slots } = { before with slots := last.slots } :=
    one.slots.unique other.slots
  have slots : after.slots = last.slots := by simpa using congrArg State.slots marked
  have metaspace : after.metaspace = last.metaspace := by
    refine Got.ext_get (one.size.trans other.size.symm) fun index => ?_
    rw [one.metaspace, other.metaspace]
  have bindings : after.bindings = last.bindings := one.bindings.trans other.bindings.symm
  rw [one.frame, other.frame, slots, metaspace, bindings]

theorem held (leftover : Leftover image calls before after) {index : Nat} :
    after.metaspace.get index = some klass ↔
      before.metaspace.get index = some klass ∧ .unload klass ∉ calls := by
  rw [leftover.metaspace]
  simp [Option.filter_eq_some_iff]

theorem oneSeat (leftover : Leftover image calls before after) (oneSeat : before.OneSeat) :
    after.OneSeat := by
  intro klass index other here there
  exact oneSeat klass index other (leftover.held.mp here).1 (leftover.held.mp there).1

theorem seats (leftover : Leftover image calls before after) (seats : Seats image before) :
    Seats image after where
  sized := by
    rw [leftover.frame]
    exact seats.sized
  seated klass classId bound := by
    have kept := lookup_kept (fun klass => some klass ∉ calls.map Revocation.klass?)
      before.bindings klass
    rw [← leftover.bindings] at kept
    rw [State.binding?, kept] at bound
    split at bound
    · rename_i stays
      obtain ⟨entry, index, loader, known, slot, seat, taken⟩ := seats.seated klass classId bound
      refine ⟨entry, index, loader, known, slot, leftover.held.mpr ⟨seat, fun gone => ?_⟩, ?_⟩
      · simp only [decide_eq_true_eq] at stays
        exact stays (List.mem_map.mpr ⟨_, gone, rfl⟩)
      · rw [leftover.frame]
        exact taken
    · cases bound

/-- A slot that is not condemned is what it was. -/
theorem phase (leftover : Leftover image calls before after)
    (spared : ¬Condemned image calls before codeId) : after.phase? codeId = before.phase? codeId :=
  congrArg (Option.map Slot.phase) (leftover.slots.spared codeId spared)

/-- Calls make nothing executable. -/
theorem resolved (leftover : Leftover image calls before after)
    (running : after.phase? codeId = some .resolved) : before.phase? codeId = some .resolved := by
  by_cases condemned : Condemned image calls before codeId
  · have step : after.slots[codeId]? = before.slots[codeId]?.map fun slot => slot.invalidate.2 :=
      leftover.slots.marked codeId condemned
    rw [State.phase?, step, Option.map_map] at running
    obtain ⟨slot, found, phase⟩ := Option.map_eq_some_iff.mp running
    rw [Function.comp_apply, Slot.invalidate_eq] at phase
    split at phase
    · simp [State.phase?, found, phase]
    · cases phase
  · rwa [← leftover.phase condemned]

/-- A class is found as before, unless it was unloaded. -/
theorem known (leftover : Leftover image calls before after) (apart : image.Apart)
    (seats : Seats image before) (oneSeat : before.OneSeat) :
    entryOf image after klass = some entry ↔
      entryOf image before klass = some entry ∧ .unload klass ∉ calls := by
  rw [entryOf_iff apart seats oneSeat,
    entryOf_iff apart (leftover.seats seats) (leftover.oneSeat oneSeat)]
  simp only [leftover.held]
  constructor
  · rintro ⟨index, ⟨held, stays⟩, own⟩
    exact ⟨⟨index, held, own⟩, stays⟩
  · rintro ⟨⟨index, held, own⟩, stays⟩
    exact ⟨index, ⟨held, stays⟩, own⟩

/-- What a call condemns after others, it condemned before them. -/
theorem condemns_before (leftover : Leftover image calls before after) (apart : image.Apart)
    (seats : Seats image before) (oneSeat : before.OneSeat) {revocation : Revocation}
    (condemned : Condemns image after revocation.call codeId) :
    Condemns image before revocation.call codeId := by
  have known {klass : ClassRef} {entry : ClassEntry} (found : entryOf image after klass = some entry) :
      entryOf image before klass = some entry :=
    ((leftover.known apart seats oneSeat).mp found).1
  cases revocation with
  | sweep name => exact condemns_sweep.mpr (condemns_sweep.mp condemned)
  | flush klass =>
    obtain ⟨entry, found, reason⟩ := condemns_flush.mp condemned
    exact condemns_flush.mpr
      ⟨entry, known found, reason.imp_right fun own => ⟨own.1, leftover.resolved own.2⟩⟩
  | unload klass =>
    obtain ⟨entry, found, reason⟩ := condemns_unload.mp condemned
    exact condemns_unload.mpr ⟨entry, known found, reason⟩

/-- What a call condemned before others, one of them condemns, or it does so after
them. -/
theorem condemns_after (leftover : Leftover image calls before after) (apart : image.Apart)
    (seats : Seats image before) (oneSeat : before.OneSeat) {revocation : Revocation}
    (condemned : Condemns image before revocation.call codeId) :
    Condemned image calls before codeId ∨ Condemns image after revocation.call codeId := by
  by_cases spared : Condemned image calls before codeId
  · exact .inl spared
  refine .inr ?_
  cases revocation with
  | sweep name => exact condemns_sweep.mpr (condemns_sweep.mp condemned)
  | flush klass =>
    obtain ⟨entry, found, reason⟩ := condemns_flush.mp condemned
    have stays : .unload klass ∉ calls := fun gone => spared ⟨_, gone, condemns_unload.mpr
      ⟨entry, found, reason.imp_right And.left⟩⟩
    exact condemns_flush.mpr ⟨entry, (leftover.known apart seats oneSeat).mpr ⟨found, stays⟩,
      reason.imp_right fun own => ⟨own.1, (leftover.phase spared).trans own.2⟩⟩
  | unload klass =>
    obtain ⟨entry, found, reason⟩ := condemns_unload.mp condemned
    have stays : .unload klass ∉ calls := fun gone => spared ⟨_, gone, condemned⟩
    exact condemns_unload.mpr
      ⟨entry, (leftover.known apart seats oneSeat).mpr ⟨found, stays⟩, reason⟩

/-- What calls leave of what others left, all of them leave together. -/
theorem append (early : Leftover image calls before middle) (late : Leftover image more middle after)
    (apart : image.Apart) (seats : Seats image before) (oneSeat : before.OneSeat) :
    Leftover image (calls ++ more) before after where
  frame := by rw [late.frame, early.frame]
  slots := by
    have onward : Marked (fun slot => slot.invalidate.2) (Condemned image more middle)
        { before with slots := middle.slots } { before with slots := after.slots } :=
      late.slots.elsewhere rfl
    refine (early.slots.trans invalidate_again onward).congr fun codeId => ?_
    constructor
    · rintro (⟨revocation, member, condemned⟩ | ⟨revocation, member, condemned⟩)
      · exact ⟨revocation, List.mem_append_left _ member, condemned⟩
      · exact ⟨revocation, List.mem_append_right _ member,
          early.condemns_before apart seats oneSeat condemned⟩
    · rintro ⟨revocation, member, condemned⟩
      rcases List.mem_append.mp member with first | second
      · exact .inl ⟨revocation, first, condemned⟩
      · exact (early.condemns_after apart seats oneSeat condemned).imp_right fun again =>
          ⟨revocation, second, again⟩
  bindings := by
    rw [late.bindings, early.bindings, List.filter_filter]
    refine List.filter_congr fun binding _ => ?_
    simp only [List.map_append, List.mem_append, not_or, Bool.decide_and, Bool.and_comm]
  size := late.size.trans early.size
  metaspace index := by
    rw [late.metaspace, early.metaspace]
    cases before.metaspace.get index with
    | none => rfl
    | some klass =>
      by_cases first : .unload klass ∈ calls <;> by_cases second : .unload klass ∈ more <;>
        simp [Option.filter, first, second]

end Leftover

/-! ## Single calls -/

/-- The two sweeps of a class that goes take along what depends on it, and its own code
in the selected phases. -/
theorem sweeps_withdraw (image : Image) (table : Engine.Table) (select : Slot.Phase → Bool) (entry : ClassEntry)
    (level : Level) (text : SweepReport → String) :
    Withdraws table (do
      let dependents ← invalidateDependents image entry
      let own ← invalidateClass image entry.classId select
      Operation.note level .deoptimization (text (dependents.merge own))
      return dependents.merge own) (Involved image select entry) := by
  intro cell
  have dependents := invalidateDependents_withdraws table image entry cell
  have own := invalidateSelected_withdraws table select (image.codesOf entry.classId)
    ((invalidateDependents image entry).finish table cell).2
  simp only [Operation.finish_bind, Operation.asked_bind, Operation.finish_note,
    Operation.asked_note, Operation.finish_pure, Operation.asked_pure, List.append_nil]
  refine (dependents.merge own).congr fun codeId => ?_
  by_cases depends : image.Depends entry codeId
  · simp [Involved, depends]
  · have spared := congrArg (Option.map Slot.phase) (dependents.marked.spared codeId depends)
    have member : codeId ∈ image.codesOf entry.classId ↔ image.Assigns codeId entry.classId :=
      ⟨assigned_of_codesOf, mem_codesOf⟩
    simp only [Involved, State.phase?, spared, member]

/-- What calls leave of a state, with books that are right. -/
structure Reckoning (image : Image) (calls : List Revocation) (before : State)
    (asked : List Engine.Request) (report : SweepReport) (after : State) : Prop where
  leftover : Leftover image calls before after
  booked : Booked before asked report after

/-- A call clears bindings and metaspace slots and then withdraws what it condemned when
it began. -/
theorem Reckoning.of_withdrawal {revocation : Revocation} {condemned : Nat → Prop}
    {asked : List Engine.Request} {report : SweepReport}
    (cleared : Cleared [revocation] before middle) (start : middle.slots = before.slots)
    (withdrawal : Withdrawal condemned middle asked report after)
    (same : ∀ codeId, condemned codeId ↔ Condemns image before revocation.call codeId) :
    Reckoning image [revocation] before asked report after := by
  have frame := withdrawal.marked.frame
  refine ⟨⟨⟨?_, ?_, ?_, ?_⟩, ?_⟩, withdrawal.booked.elsewhere start.symm⟩
  · rw [frame, cleared.frame]
  · rw [frame]
    exact cleared.bindings
  · rw [frame]
    exact cleared.size
  · rw [frame]
    exact cleared.metaspace
  · exact (withdrawal.marked.elsewhere start.symm).congr fun codeId => by simp [Condemned, same]

theorem cleared_sweep (name : String) (state : State) : Cleared [.sweep name] state state where
  frame := rfl
  bindings := by simp [Revocation.klass?]
  size := rfl
  metaspace index := by cases state.metaspace.get index <;> simp [Option.filter]

theorem cleared_flush (klass : ClassRef) (state : State) :
    Cleared [.flush klass] state (state.unbind klass) where
  frame := rfl
  bindings := by simp [Revocation.klass?, State.unbind]
  size := rfl
  metaspace index := by
    have same : (state.unbind klass).metaspace = state.metaspace := rfl
    rw [same]
    cases state.metaspace.get index <;> simp [Option.filter]

theorem Leaves.cleared (leaves : Leaves klass before after) : Cleared [.unload klass] before after where
  frame := by rw [leaves.frame]
  bindings := by
    rw [leaves.frame]
    simp [Revocation.klass?, State.unbind]
  size := leaves.size
  metaspace index := by
    cases held : before.metaspace.get index with
    | none =>
      rw [Option.filter_none, Option.eq_none_iff_forall_ne_some]
      intro other there
      cases held.symm.trans (leaves.fewer index other there)
    | some other =>
      by_cases own : other = klass
      · subst own
        simp only [List.mem_singleton, not_true, decide_false, Option.filter, Bool.false_eq_true,
          if_false, Option.eq_none_iff_forall_ne_some]
        intro rest there
        obtain rfl := Option.some.inj (held.symm.trans (leaves.fewer index rest there))
        exact leaves.gone index there
      · simpa [Option.filter, own] using leaves.others index other own held

theorem unbind_of_unbound (unbound : before.binding? klass = none) : before.unbind klass = before := by
  have absent : ∀ binding ∈ before.bindings, binding.1 ≠ klass := by
    intro binding member same
    simpa [same] using List.lookup_eq_none_iff.mp unbound binding member
  have kept : before.bindings.filter (fun binding => binding.1 ≠ klass) = before.bindings :=
    List.filter_eq_self.mpr fun binding member => by simpa using absent binding member
  rw [State.unbind, kept]

/-- Answered from a table, a call leaves what it should. -/
def Reckons (table : Engine.Table) (image : Image) (calls : List Revocation)
    (operation : Operation SweepReport) : Prop :=
  ∀ cell, Seats image cell.state → Reckoning image calls cell.state (operation.asked table cell)
    (operation.finish table cell).1 (operation.finish table cell).2.state

theorem sweep_reckons (table : Engine.Table) (image : Image) (name : String) :
    Reckons table image [.sweep name] (sweep image name) := by
  intro cell _
  obtain ⟨found, same⟩ := findClass_finish table image name cell
  have silent := findClass_asked table image name cell
  rw [sweep, Operation.finish_bind, Operation.asked_bind, silent, List.nil_append]
  generalize (findClass image name).finish table cell = outcome at found same ⊢
  obtain ⟨result, between⟩ := outcome
  dsimp only at found same
  subst found
  have cleared := cleared_sweep name cell.state
  rw [← same] at cleared ⊢
  rcases known : lookupClass image name with _ | _ | entry
  · exact .of_withdrawal cleared rfl (.idle (fun _ => id) between.state) fun codeId => by
      simp [Revocation.call, condemns_sweep, known]
  · exact .of_withdrawal cleared rfl (.idle (fun _ => id) between.state) fun codeId => by
      simp [Revocation.call, condemns_sweep, known]
  · exact .of_withdrawal cleared rfl (invalidateDependents_withdraws table image entry between)
      fun codeId => by simp [Revocation.call, condemns_sweep, known]

theorem flush_reckons (table : Engine.Table) (image : Image) (klass : ClassRef) :
    Reckons table image [.flush klass] (flush image klass) := by
  intro cell seats
  have cleared := cleared_flush klass cell.state
  rw [flush, Operation.finish_bind, Operation.asked_bind, Operation.finish_look,
    Operation.asked_look, List.nil_append]
  dsimp only
  cases known : entryOf image cell.state klass with
  | none =>
    have unbound : boundEntry image cell.state klass = none := by
      unfold entryOf at known
      split at known
      · cases known
      · assumption
    rw [unbind_of_unbound (seats.unbound unbound)] at cleared
    exact .of_withdrawal cleared rfl (.idle (fun _ => id) cell.state) fun codeId => by
      simp [Revocation.call, condemns_flush, known]
  | some entry =>
    have swept := sweeps_withdraw image table (fun phase => phase == .resolved) entry .info
      (fun report => s!"redefinition of class {entry.classId} in {image.library.name}: " ++
        s!"{report.invalidated} methods invalidated") { cell with state := cell.state.unbind klass }
    rw [Operation.finish_bind, Operation.asked_bind]
    exact .of_withdrawal cleared rfl swept fun codeId => by
      have same : (cell.state.unbind klass).phase? codeId = cell.state.phase? codeId := rfl
      simp [Revocation.call, condemns_flush, known, Involved, same, Option.any_eq_true]

theorem unload_reckons (table : Engine.Table) (image : Image) (klass : ClassRef) :
    Reckons table image [.unload klass] (unload image klass) := by
  intro cell seats
  obtain ⟨between, ran, leaves⟩ := unload_leaves image klass cell
  rw [Operation.finish, Operation.asked, ran]
  have start : between.state.slots = cell.state.slots := by rw [leaves.frame]
  cases known : entryOf image cell.state klass with
  | none =>
    exact .of_withdrawal leaves.cleared start (.idle (fun _ => id) between.state) fun codeId => by
      simp [Revocation.call, condemns_unload, known]
  | some entry =>
    have swept := sweeps_withdraw image table (fun phase => phase != .invalidated) entry
      .debug (fun report => s!"unloaded class {entry.classId} of {image.library.name}: " ++
        s!"{report.invalidated} methods invalidated") between
    -- code that was dead before is condemned as well, but there is nothing left to do
    have all : Marked (fun slot => slot.invalidate.2)
        (fun codeId => image.Depends entry codeId ∨ image.Assigns codeId entry.classId)
        between.state ((finishUnload image (some entry)).finish table between).2.state := by
      refine swept.marked.extend (fun codeId => Or.imp_right And.left) ?_
      intro codeId slot member spared found
      have dead : slot.phase = .invalidated := by
        by_contra alive
        exact spared (member.imp_right fun own => ⟨own, by simp [State.phase?, found, alive]⟩)
      cases slot
      simp_all [Slot.invalidate_eq]
    exact .of_withdrawal leaves.cleared start ⟨all, swept.booked⟩ fun codeId => by
      simp [Revocation.call, condemns_unload, known]

theorem perform_reckons (table : Engine.Table) (image : Image) (revocation : Revocation) :
    Reckons table image [revocation] (revocation.perform image) := by
  cases revocation with
  | sweep name => exact sweep_reckons table image name
  | flush klass => exact flush_reckons table image klass
  | unload klass => exact unload_reckons table image klass

theorem revokeAll_reckons (table : Engine.Table) (apart : image.Apart) (calls : List Revocation)
    (cell : Cell) (seats : Seats image cell.state) (oneSeat : cell.state.OneSeat) :
    Reckoning image calls cell.state ((revokeAll image calls).asked table cell)
      ((revokeAll image calls).finish table cell).1 ((revokeAll image calls).finish table cell).2.state := by
  induction calls generalizing cell with
  | nil => exact ⟨.nil cell.state, .still cell.state ⟨rfl, rfl⟩⟩
  | cons revocation rest ih =>
    have first := perform_reckons table image revocation cell seats
    have later := ih ((revocation.perform image).finish table cell).2 (first.leftover.seats seats)
      (first.leftover.oneSeat oneSeat)
    rw [revokeAll]
    simp only [Operation.finish_bind, Operation.asked_bind, Operation.finish_pure,
      Operation.asked_pure, List.append_nil]
    exact ⟨first.leftover.append later.leftover apart seats oneSeat, first.booked.merge later.booked⟩

/-! ## Built blobs -/

section Built

variable {edits : List Edit} {settings : BuildSettings} {engineVersion name : String} {id : Nat}
  {options : LoadOptions} {loading journal : Journal} {library : Library} {heap : Heap}
  (known : Edits.Known edits) (fits : (Draft.describe settings engineVersion edits).Fits)
  (loaded : ((Library.load (Draft.describe settings engineVersion edits).assemble name id
    options).run loading).1 = .ok library)
  (created : ((Heap.create library).run journal).1 = .ok heap)
  (distinct : ((Edits.classes edits).map Prod.fst).Nodup)
include known fits loaded created distinct

theorem built_apart : heap.image.Apart := by
  intro entry other index present there slot same
  obtain ⟨owner, found, seat, -⟩ := built_seat known fits loaded created present
  obtain ⟨rival, among, place, -⟩ := built_seat known fits loaded created there
  obtain rfl := Option.some.inj (seat.symm.trans slot)
  have shared : rival.gotIndex = owner.gotIndex := Option.some.inj (place.symm.trans same)
  have names : rival.name = owner.name := by
    have first := summary_listed owner (List.mem_of_getElem? found)
    have second := summary_listed rival (List.mem_of_getElem? among)
    rw [shared, first] at second
    exact (Option.some.inj second).symm
  have unique : ((Edits.summary settings engineVersion edits).classes.map ClassDraft.name).Nodup := by
    rw [Edits.summary_names]
    exact distinct
  have number : entry.classId = other.classId := by
    obtain ⟨inside, -⟩ := List.getElem?_eq_some_iff.mp found
    refine (List.getElem?_inj ((List.length_map _).symm ▸ inside) unique).mp ?_
    rw [List.getElem?_map, List.getElem?_map, found, among, Option.map_some, Option.map_some, names]
  rw [number] at present
  exact Option.some.inj (present.symm.trans there)

/-- What sweeps, redefinitions and unloadings leave of the heap of a built blob, in which no
live class is in two metaspace slots, depends only on which of them there were, if the
engine does not call back. Their order matters neither for the state in the end, nor for
what is told the engine, nor for how much they report. -/
theorem revocations_commute {admits : (service heap.image).Course → Task → Prop}
    {course : (service heap.image).Course} (reached : Reaches heap admits course)
    (oneSeat : course.state.state.OneSeat) {first second : List Revocation}
    (same : ∀ revocation, revocation ∈ first ↔ revocation ∈ second)
    {asked told : List Engine.Request} {report reported : SweepReport} {last final : Cell}
    (one : (revokeAll heap.image first course.state).Concludes asked report last)
    (other : (revokeAll heap.image second course.state).Concludes told reported final) :
    last.state = final.state ∧ report.invalidated = reported.invalidated ∧
      report.deoptimized = reported.deoptimized ∧ asked.Perm told ∧
      ∀ request ∈ asked, ∃ code, request = .deoptimize code := by
  have apart := built_apart known fits loaded created distinct
  have seats := (reached.intact created).seats
  have settled : ∀ {calls : List Revocation} {asked report last},
      (revokeAll heap.image calls course.state).Concludes asked report last →
      Reckoning heap.image calls course.state.state asked report last.state := by
    intro calls asked report last concludes
    have reckoning := revokeAll_reckons unanswered apart calls course.state seats oneSeat
    obtain ⟨rfl, ended⟩ := concludes.mute reckoning.booked.plain
    obtain ⟨rfl, rfl⟩ := Prod.mk.inj ended
    exact reckoning
  have left := settled one
  have right := settled other
  have state := (left.leftover.congr same).unique right.leftover
  obtain ⟨invalidated, deoptimized, asking⟩ := left.booked.unique (state ▸ right.booked)
  exact ⟨state, invalidated, deoptimized, asking, left.booked.told⟩

end Built

/-- A table in which every value is there once has one slot for it. -/
theorem oneSeat_of_nodup {state : State} (once : (state.metaspace.resolved.map Prod.snd).Nodup) :
    state.OneSeat := by
  intro klass index other here there
  have same := List.inj_on_of_nodup_map once (Got.mem_resolved.mpr here) (Got.mem_resolved.mpr there) rfl
  exact (Prod.mk.inj same).1

/-- The guarded class as it was built, and calls about it and the class that depends
on it. -/
def guardedA : ClassView :=
  { reshapedA with fingerprint := 7 }

def guardedCalls : List Revocation :=
  [.unload liveB, .flush liveA, .sweep "A", .flush liveB]

set_option maxRecDepth 1000000 in
theorem guarded_revoked : (built? guarded).any (fun built =>
    let cell := afterCalls built.2 [.loadClass guardedA, .loadClass guardedB]
      { state := built.2.state }
    let one := (revokeAll built.2.image guardedCalls).finish unanswered cell
    decide (cell.state.metaspace.resolved.map Prod.snd).Nodup &&
      (one.1.invalidated == 2 && one.1.deoptimized == 2)) = true := by
  decide +kernel

/-- The two classes go in one order and in the opposite one. -/
theorem revocations_commute_guarded : ∃ (library : Library) (heap : Heap)
    (course : (service heap.image).Course) (asked told : List Engine.Request)
    (report reported : SweepReport) (last final : Cell),
    ((Library.load (Draft.describe {} "1" guarded).assemble "lib" 0
      { verifyChecksum := false }).run []).1 = .ok library ∧
    ((Heap.create library).run []).1 = .ok heap ∧ ((Edits.classes guarded).map Prod.fst).Nodup ∧
    Reaches heap Native course ∧ course.state.state.OneSeat ∧
    (revokeAll heap.image guardedCalls course.state).Concludes asked report last ∧
    (revokeAll heap.image guardedCalls.reverse course.state).Concludes told reported final ∧
    report.invalidated = 2 ∧ report.deoptimized = 2 ∧
    last.state = final.state ∧ report.invalidated = reported.invalidated ∧
    report.deoptimized = reported.deoptimized ∧ asked.Perm told ∧
    ∀ request ∈ asked, ∃ code, request = .deoptimize code := by
  obtain ⟨⟨library, heap⟩, built, revoked⟩ := (Option.any_eq_true _ _).mp guarded_revoked
  obtain ⟨loaded, created⟩ := built_some built
  simp only [Bool.and_eq_true, beq_iff_eq, decide_eq_true_eq] at revoked
  obtain ⟨once, invalidated, deoptimized⟩ := revoked
  have known : Edits.Known guarded := by decide
  have fits : (Draft.describe {} "1" guarded).Fits := Draft.fits_of_length (by decide +kernel)
  have distinct : ((Edits.classes guarded).map Prod.fst).Nodup := by decide
  have native (call : Call) (among : call ∈ [.loadClass guardedA, .loadClass guardedB])
      (course : (service heap.image).Course) (_ : course.pending = []) : Native course (.call call) :=
    fun code same => by simp [Task.call.inj same] at among
  obtain ⟨course, onward, -, state⟩ := calls_carried _ native { state := { state := heap.state } } rfl
  have reached : Reaches heap Native course := ⟨{}, [], onward⟩
  rw [← state] at once invalidated deoptimized
  have oneSeat := oneSeat_of_nodup once
  have one := Dialogue.Concludes.of_table unanswered (revokeAll heap.image guardedCalls course.state)
  have other := Dialogue.Concludes.of_table unanswered
    (revokeAll heap.image guardedCalls.reverse course.state)
  exact ⟨library, heap, course, _, _, _, _, _, _, loaded, created, distinct, reached, oneSeat, one,
    other, invalidated, deoptimized, revocations_commute known fits loaded created distinct reached
      oneSeat (fun _ => List.mem_reverse.symm) one other⟩

end Precompiled.Heap
