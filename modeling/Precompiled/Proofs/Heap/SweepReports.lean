import Precompiled.Proofs.Heap.Integrity
import Precompiled.Proofs.Heap.Misses

/-! What a sweep of dependents reports. The list of a class may name a slot twice,
a stub, or no slot at all, and a listed slot may have been invalidated before; the
report counts every entry of the list that names a slot once, under one heading, and
the engine is told of each executable slot when the sweep first comes to it. -/
namespace Precompiled.Heap

open Relation (ReflTransGen)

variable {image : Image} {table : Engine.Table} {before middle after : State} {codeId : Nat}
  {listed others : List Nat} {asked further : List Engine.Request} {report next : SweepReport}

/-- The slot holds a stub. -/
def State.stubAt (state : State) (codeId : Nat) : Bool :=
  state.slots[codeId]?.any fun slot => slot.handle.any LinkedCode.isStub

/-- The slot can be invalidated: it holds no stub and was not invalidated before. -/
def State.aliveAt (state : State) (codeId : Nat) : Bool :=
  state.slots[codeId]?.any fun slot =>
    !slot.handle.any LinkedCode.isStub && slot.phase != .invalidated

def State.resolvedAt (state : State) (codeId : Nat) : Bool :=
  state.phase? codeId == some .resolved

/-- The slots that a sweep through a list moves, in the order in which it comes to
them. -/
def State.moves (state : State) (listed : List Nat) : List Nat :=
  (listed.filter state.aliveAt).eraseDups

/-- How many entries of a list the report speaks of. -/
def SweepReport.total (report : SweepReport) : Nat :=
  report.invalidated + report.alreadyInvalidated + report.stubsSkipped

/-- The report of a sweep through a list, and what the engine was told. -/
structure Tallied (listed : List Nat) (before : State) (asked : List Engine.Request)
    (report : SweepReport) : Prop where
  invalidated : report.invalidated = (before.moves listed).length
  deoptimized : report.deoptimized = ((before.moves listed).filter before.resolvedAt).length
  /-- Each executable slot that is moved has code, and the engine is told of it. -/
  told : asked.map some = ((before.moves listed).filter before.resolvedAt).map fun codeId =>
    (before.executable? codeId).map .deoptimize
  skipped : report.stubsSkipped = listed.countP before.stubAt
  total : report.total = listed.countP (· < before.slots.length)

/-! ## One after the other -/

section Marked

variable (marked : Marked (fun slot => slot.invalidate.2) (· ∈ listed) before after)
include marked

theorem Marked.stubAt : after.stubAt = before.stubAt := by
  funext codeId
  unfold State.stubAt
  by_cases among : codeId ∈ listed
  · rw [marked.marked codeId among, Option.any_map]
    congr 1
    funext slot
    rw [Slot.invalidate_eq]
    split <;> rfl
  · rw [marked.spared codeId among]

theorem Marked.aliveAt (codeId : Nat) :
    after.aliveAt codeId = (before.aliveAt codeId && !listed.contains codeId) := by
  unfold State.aliveAt
  by_cases among : codeId ∈ listed
  · rw [marked.marked codeId among]
    cases before.slots[codeId]? with
    | none => simp
    | some slot =>
      by_cases isStub : slot.handle.any LinkedCode.isStub = true <;>
        simp [Slot.invalidate_eq, isStub, among]
  · simp [marked.spared codeId among, among]

theorem Marked.length : after.slots.length = before.slots.length := by
  refine Nat.le_antisymm ?_ ?_ <;> rw [← List.getElem?_eq_none_iff]
  · exact marked.absent (List.getElem?_eq_none_iff.mpr (Nat.le_refl _))
  · have none : after.slots[after.slots.length]? = none :=
      List.getElem?_eq_none_iff.mpr (Nat.le_refl _)
    cases there : before.slots[after.slots.length]? with
    | none => rfl
    | some slot =>
      rcases marked.found there with ⟨found, -⟩ | ⟨found, -⟩ <;> cases none.symm.trans found

theorem Marked.moves_append (others : List Nat) :
    before.moves (listed ++ others) = before.moves listed ++ after.moves others := by
  have left : (others.filter before.aliveAt).removeAll (listed.filter before.aliveAt) =
      others.filter after.aliveAt := by
    rw [List.removeAll, List.filter_filter]
    refine List.filter_congr fun codeId _ => ?_
    rw [marked.aliveAt codeId]
    cases alive : before.aliveAt codeId <;> simp [alive]
  rw [State.moves, List.filter_append, List.eraseDups_append, left]
  rfl

theorem Marked.mem_moves (others : List Nat) (moved : codeId ∈ after.moves others) :
    after.slots[codeId]? = before.slots[codeId]? := by
  have alive := (List.mem_filter.mp (List.mem_eraseDups.mp moved)).2
  rw [marked.aliveAt codeId] at alive
  exact marked.spared codeId (by simpa using (Bool.and_eq_true_iff.mp alive).2)

end Marked

theorem Tallied.merge (first : Tallied listed before asked report)
    (marked : Marked (fun slot => slot.invalidate.2) (· ∈ listed) before middle)
    (second : Tallied others middle further next) :
    Tallied (listed ++ others) before (asked ++ further) (report.merge next) := by
  have later : (middle.moves others).filter before.resolvedAt =
      (middle.moves others).filter middle.resolvedAt := by
    refine List.filter_congr fun codeId moved => ?_
    rw [State.resolvedAt, State.resolvedAt, State.phase?, State.phase?,
      marked.mem_moves others moved]
  refine ⟨?_, ?_, ?_, ?_, ?_⟩
  · rw [marked.moves_append, List.length_append, ← first.invalidated, ← second.invalidated]
    rfl
  · rw [marked.moves_append, List.filter_append, later, List.length_append, ← first.deoptimized,
      ← second.deoptimized]
    rfl
  · rw [marked.moves_append, List.filter_append, later, List.map_append, List.map_append,
      first.told, second.told]
    congr 1
    refine List.map_congr_left fun codeId member => ?_
    rw [State.executable?, State.executable?,
      marked.mem_moves others (List.mem_of_mem_filter member)]
  · rw [List.countP_append, ← first.skipped, ← marked.stubAt, ← second.skipped]
    rfl
  · have one := first.total
    have two := second.total
    rw [marked.length] at two
    rw [List.countP_append, ← one, ← two]
    simp only [SweepReport.total, SweepReport.merge]
    omega

/-! ## One slot -/

/-- The report of invalidating one slot. -/
def reportOf (slot : Slot) : SweepReport :=
  match slot.invalidate.1 with
  | .stub => { stubsSkipped := 1 }
  | .alreadyInvalidated => { alreadyInvalidated := 1 }
  | .invalidated false => { invalidated := 1 }
  | .invalidated true => { invalidated := 1, deoptimized := 1 }

/-- What the engine is told when a slot is invalidated. -/
def noticesOf (slot : Slot) : List Engine.Request :=
  match slot.invalidate.1 with
  | .invalidated true => (slot.handle.map .deoptimize).toList
  | _ => []

theorem invalidateCode_found (table : Engine.Table) {cell : Cell} {slot : Slot}
    (found : cell.state.slots[codeId]? = some slot) :
    (invalidateCode codeId).asked table cell = noticesOf slot ∧
      ((invalidateCode codeId).finish table cell).1 = reportOf slot := by
  obtain ⟨inside, -⟩ := List.getElem?_eq_some_iff.mp found
  have kept : slot.invalidate.2.handle = slot.handle := invalidate_handle
  rw [invalidateCode, Operation.finish_bind, Operation.asked_bind, Operation.asked_changeSlot,
    List.nil_append, Operation.finish_changeSlot, found, noticesOf, reportOf]
  dsimp only
  cases slot.invalidate.1 with
  | stub => exact ⟨rfl, rfl⟩
  | alreadyInvalidated => exact ⟨rfl, rfl⟩
  | invalidated wasResolved =>
    cases wasResolved with
    | false => exact ⟨rfl, rfl⟩
    | true =>
      simp only [Operation.finish_bind, Operation.asked_bind, countInvalidated,
        Operation.finish_count, Operation.asked_count, Operation.finish_look,
        Operation.asked_look, List.nil_append, List.getElem?_set_self inside, Option.bind_some,
        kept]
      cases slot.handle <;> exact ⟨rfl, rfl⟩

theorem moves_single (state : State) (codeId : Nat) :
    state.moves [codeId] = if state.aliveAt codeId then [codeId] else [] := by
  unfold State.moves
  cases alive : state.aliveAt codeId <;> simp [alive, List.eraseDups_cons]

theorem tallied_slot {state : State} {slot : Slot} (found : state.slots[codeId]? = some slot)
    (orderly : Orderly codeId slot) : Tallied [codeId] state (noticesOf slot) (reportOf slot) := by
  obtain ⟨inside, -⟩ := List.getElem?_eq_some_iff.mp found
  have stubAt : state.stubAt codeId = slot.handle.any LinkedCode.isStub := by
    simp [State.stubAt, found]
  have aliveAt : state.aliveAt codeId =
      (!slot.handle.any LinkedCode.isStub && slot.phase != .invalidated) := by
    simp [State.aliveAt, found]
  have resolvedAt : state.resolvedAt codeId = (slot.phase == .resolved) := by
    simp [State.resolvedAt, State.phase?, found]
  unfold noticesOf reportOf
  cases isStub : slot.handle.any LinkedCode.isStub with
  | true =>
    have outcome : slot.invalidate.1 = .stub := by simp [Slot.invalidate, isStub]
    rw [outcome]
    constructor <;> simp [moves_single, stubAt, aliveAt, SweepReport.total, inside, isStub]
  | false =>
    cases phase : slot.phase with
    | invalidated =>
      have outcome : slot.invalidate.1 = .alreadyInvalidated := by
        simp [Slot.invalidate, isStub, phase]
      rw [outcome]
      constructor <;> simp [moves_single, stubAt, aliveAt, SweepReport.total, inside, isStub, phase]
    | unresolved =>
      have outcome : slot.invalidate.1 = .invalidated false := by
        simp [Slot.invalidate, isStub, phase]
      rw [outcome]
      constructor <;>
        simp [moves_single, stubAt, aliveAt, resolvedAt, SweepReport.total, inside, isStub, phase]
    | resolved =>
      obtain ⟨code, held⟩ := orderly.resolved phase
      have outcome : slot.invalidate.1 = .invalidated true := by
        simp [Slot.invalidate, isStub, phase]
      have executable : state.executable? codeId = some code :=
        executable?_some.mpr ⟨slot, found, phase, held⟩
      rw [outcome, held]
      constructor <;>
        simp [moves_single, stubAt, aliveAt, resolvedAt, executable, SweepReport.total, inside,
          isStub, phase]

theorem invalidateCode_tallied (table : Engine.Table) (codeId : Nat) (cell : Cell)
    (orderly : cell.state.Orderly) : Tallied [codeId] cell.state
      ((invalidateCode codeId).asked table cell) ((invalidateCode codeId).finish table cell).1 := by
  cases found : cell.state.slots[codeId]? with
  | none =>
    have outside : ¬codeId < cell.state.slots.length := by
      simpa using List.getElem?_eq_none_iff.mp found
    rw [invalidateCode, Operation.finish_bind, Operation.asked_bind, Operation.asked_changeSlot,
      List.nil_append, Operation.finish_changeSlot, found]
    constructor <;>
      simp [moves_single, State.aliveAt, State.stubAt, SweepReport.total, outside]
  | some slot =>
    obtain ⟨asked, report⟩ := invalidateCode_found table found
    rw [asked, report]
    exact tallied_slot found (orderly codeId slot found)

/-! ## The whole list -/

theorem Marked.orderly {chosen : Nat → Prop}
    (marked : Marked (fun slot => slot.invalidate.2) chosen before after)
    (orderly : before.Orderly) : after.Orderly := by
  intro codeId slot there
  cases found : before.slots[codeId]? with
  | none => cases there.symm.trans (marked.absent found)
  | some old =>
    have own := orderly codeId old found
    rcases marked.found found with ⟨now, -⟩ | ⟨now, -⟩
    · exact Option.some.inj (there.symm.trans now) ▸ own.invalidate
    · exact Option.some.inj (there.symm.trans now) ▸ own

theorem invalidateCodes_tallied (table : Engine.Table) (listed : List Nat) (cell : Cell)
    (orderly : cell.state.Orderly) : Tallied listed cell.state
      ((invalidateCodes listed).asked table cell) ((invalidateCodes listed).finish table cell).1 := by
  induction listed generalizing cell with
  | nil => constructor <;> rfl
  | cons codeId rest ih =>
    have marked : Marked (fun slot => slot.invalidate.2) (· ∈ [codeId]) cell.state _ :=
      (invalidateCode_withdraws table codeId cell).marked.congr (by simp)
    have both := (invalidateCode_tallied table codeId cell orderly).merge marked
      (ih _ (marked.orderly orderly))
    rw [invalidateCodes]
    simpa only [Operation.finish_bind, Operation.asked_bind, Operation.finish_pure,
      Operation.asked_pure, List.append_nil, List.singleton_append] using both

/-- All that a sweep of dependents does: the listed slots that hold no stub are
invalidated, nothing else changes, and the report is right. -/
structure Swept (listed : List Nat) (before : State) (asked : List Engine.Request)
    (report : SweepReport) (after : State) : Prop extends Tallied listed before asked report where
  frame : after = { before with slots := after.slots }
  count : after.slots.length = before.slots.length
  gone : ∀ codeId ∈ listed, ∀ slot : Slot, before.slots[codeId]? = some slot →
    slot.handle.any LinkedCode.isStub = false →
      after.slots[codeId]? = some { slot with phase := .invalidated }
  spared : ∀ codeId, (codeId ∈ listed → before.stubAt codeId = true) →
    after.slots[codeId]? = before.slots[codeId]?

theorem Tallied.swept (tallied : Tallied listed before asked report)
    (marked : Marked (fun slot => slot.invalidate.2) (· ∈ listed) before after) :
    Swept listed before asked report after where
  toTallied := tallied
  frame := marked.frame
  count := marked.length
  gone codeId among slot found method := by
    rw [marked.marked codeId among, found, Option.map_some, Slot.invalidate_eq,
      if_neg (by simp [method])]
  spared codeId stub := by
    by_cases among : codeId ∈ listed
    · rw [marked.marked codeId among]
      cases found : before.slots[codeId]? with
      | none => rfl
      | some slot =>
        have isStub : slot.handle.any LinkedCode.isStub = true := by
          simpa [State.stubAt, found] using stub among
        rw [Option.map_some, Slot.invalidate_eq, if_pos isStub]
    · exact marked.spared codeId among

section Entry

variable {entry : ClassEntry} {dependents : List Nat}
  (lists : image.library.dependentsOf entry.record = .ok dependents)
include lists

theorem invalidateDependents_swept (table : Engine.Table) (cell : Cell)
    (orderly : cell.state.Orderly) : Swept dependents cell.state
      ((invalidateDependents image entry).asked table cell)
      ((invalidateDependents image entry).finish table cell).1
      ((invalidateDependents image entry).finish table cell).2.state := by
  have swept := (invalidateCodes_tallied table dependents cell orderly).swept
    (invalidateCodes_withdraws table dependents cell).marked
  unfold invalidateDependents
  rw [lists]
  dsimp only
  rw [Operation.finish_bind, Operation.asked_bind]
  generalize (invalidateCodes dependents).finish table cell = outcome at swept ⊢
  split <;> simpa using swept

/-- What the engine answers makes no difference. -/
theorem concludes_swept {cell last : Cell} (orderly : cell.state.Orderly)
    (concludes : (invalidateDependents image entry cell).Concludes asked report last) :
    Swept dependents cell.state asked report last.state := by
  have booked := (invalidateDependents_withdraws unanswered image entry cell).booked
  obtain ⟨rfl, ended⟩ := concludes.mute booked.plain
  have swept := invalidateDependents_swept lists unanswered cell orderly
  rw [Operation.finish, ← ended] at swept
  exact swept

end Entry

/-! ## Sweeping again -/

theorem Swept.dead (swept : Swept listed before asked report after) (among : codeId ∈ listed) :
    after.Dead codeId := by
  intro slot there
  cases found : before.slots[codeId]? with
  | none =>
    have outside := List.getElem?_eq_none_iff.mp found
    rw [← swept.count, ← List.getElem?_eq_none_iff, there] at outside
    cases outside
  | some old =>
    cases isStub : old.handle.any LinkedCode.isStub with
    | true =>
      have kept := swept.spared codeId fun _ => by simp [State.stubAt, found, isStub]
      rw [there, found] at kept
      obtain rfl := Option.some.inj kept
      obtain ⟨stub, held, known⟩ := (Option.any_eq_true _ _).mp isStub
      exact .inr ⟨stub, held, known⟩
    | false =>
      have gone := swept.gone codeId among old found isStub
      rw [there] at gone
      exact .inl (congrArg Slot.phase (Option.some.inj gone))

theorem State.Dead.not_alive {state : State} (dead : state.Dead codeId) :
    state.aliveAt codeId = false := by
  unfold State.aliveAt
  cases found : state.slots[codeId]? with
  | none => rfl
  | some slot =>
    rcases dead slot found with phase | ⟨stub, held, isStub⟩
    · simp [phase]
    · simp [held, isStub]

/-- Once a list was swept there is nothing left to move. -/
theorem Swept.moves_later {later : State} (swept : Swept listed before asked report after)
    (grows : after.Grows later) : later.moves listed = [] := by
  have none : listed.filter later.aliveAt = [] := by
    refine List.filter_eq_nil_iff.mpr fun codeId among => ?_
    simp [(grows.dead (swept.dead among)).not_alive]
  rw [State.moves, none]
  rfl

/-- A later sweep through the same list moves nothing and counts as many entries. -/
theorem Swept.again {later last : State} (swept : Swept listed before asked report after)
    (grows : after.Grows later) (second : Swept listed later further next last) :
    next.invalidated = 0 ∧ next.deoptimized = 0 ∧ further = [] ∧ next.total = report.total := by
  have idle := swept.moves_later grows
  refine ⟨?_, ?_, ?_, ?_⟩
  · rw [second.invalidated, idle, List.length_nil]
  · rw [second.deoptimized, idle, List.filter_nil, List.length_nil]
  · have told := second.told
    rw [idle] at told
    exact List.map_eq_nil_iff.mp told
  · rw [second.total, swept.total, grows.count, swept.count]

/-! ## Runs -/

theorem conclude_lift {α : Type} (answers : (question : Question) → question.Answer)
    (operation : Operation α) (cell : Cell) :
    (operation.lift cell).conclude answers =
      operation.finish (fun request => answers (.engine request)) cell :=
  Dialogue.conclude_answeredBy (fun _ _ => rfl) (operation cell)

/-- Calls as they are admitted, and sweeps of the dependents of a class. -/
def OrSweep {image : Image} (admits : (service image).Course → Task → Prop) (entry : ClassEntry)
    (course : (service image).Course) (task : Task) : Prop :=
  admits course task ∨ task = .call (.sweepEntry entry)

/-- A sweep that the engine does not interrupt is a course. -/
theorem sweep_carried {admits : (service image).Course → Task → Prop}
    {start : (service image).Course} {entry : ClassEntry} {last : Cell}
    (concludes : (invalidateDependents image entry start.state).Concludes asked report last) :
    ∃ finish, ReflTransGen (Service.Step (OrSweep admits entry)) start finish ∧
      finish.state = last ∧ finish.pending = start.pending := by
  have booked := (invalidateDependents_withdraws unanswered image entry start.state).booked
  obtain ⟨-, ended⟩ := concludes.mute booked.plain
  have begun : Service.Step (OrSweep admits entry) start
      (start.begin (.call (.sweepEntry entry))) := .call _ (.inr rfl)
  obtain ⟨finish, onward, pending, state⟩ := Service.Course.halt_replies blank
    (start.note (.called (.call (.sweepEntry entry)))) (.call (.sweepEntry entry))
    (Task.perform image (.call (.sweepEntry entry)) start.state)
  refine ⟨finish, .head begun onward, ?_, pending⟩
  have same := conclude_lift blank (invalidateDependents image entry) start.state
  rw [state]
  exact (congrArg Prod.snd same).trans (congrArg Prod.snd ended).symm

/-- In every heap and after every course of its tasks a sweep of dependents does what
its report says, if the engine does not call back in between, and after any further
tasks a second one has nothing left to do. -/
theorem sweeps_exact {library : Library} {journal : Journal} {heap : Heap}
    {admits other : (service heap.image).Course → Task → Prop}
    {start : (service heap.image).Course} {entry : ClassEntry} {dependents : List Nat}
    (created : ((Heap.create library).run journal).1 = .ok heap)
    (reached : Reaches heap admits start)
    (lists : heap.image.library.dependentsOf entry.record = .ok dependents) :
    (∃ asked report last,
      (invalidateDependents heap.image entry start.state).Concludes asked report last) ∧
    ∀ asked report last,
      (invalidateDependents heap.image entry start.state).Concludes asked report last →
      Swept dependents start.state.state asked report last.state ∧
      (∃ finish, ReflTransGen (Service.Step (OrSweep admits entry)) start finish ∧
        finish.state = last ∧ finish.pending = start.pending) ∧
      ∀ finish later, Reaches heap other finish → finish.state = last →
        ReflTransGen (Service.Step other) finish later → ∀ further again final,
        (invalidateDependents heap.image entry later.state).Concludes further again final →
        again.invalidated = 0 ∧ again.deoptimized = 0 ∧ further = [] ∧
          again.total = report.total := by
  refine ⟨⟨_, _, _, Dialogue.Concludes.of_table unanswered _⟩, ?_⟩
  intro asked report last concludes
  have swept := concludes_swept lists (reached.intact created).orderly concludes
  refine ⟨swept, sweep_carried concludes, ?_⟩
  rintro finish later onward rfl steps further again final second
  have ready : Reaches heap other later := by
    obtain ⟨counters, journal, first⟩ := onward
    exact ⟨counters, journal, first.trans steps⟩
  exact swept.again (onward.grows steps)
    (concludes_swept lists (ready.intact created).orderly second)

/-! ## A list that names slots of every kind -/

/-- Dependents of one class: a method of another class, twice, a stub, a slot that does
not exist, and a method of the class itself. -/
def crowded : List Blob.Edit :=
  [.addClass "A" 7, .addClass "B" 8, .addMethod 0 { name := "m", signature := "()V" },
   .addMethod 1 { name := "n", signature := "()V" }, .addStub "s" 16, .addDependent 0 1,
   .addDependent 0 2, .addDependent 0 1, .addDependent 0 9, .addDependent 0 0]

/-- The class whose dependents they are, with its list. -/
def crowdedEntry (heap : Heap) : Option (ClassEntry × List Nat) := do
  let entry ← (lookupClass heap.image "A").toOption.join
  let dependents ← (heap.image.library.dependentsOf entry.record).toOption
  return (entry, dependents)

set_option maxRecDepth 1000000 in
theorem crowded_swept : (built? crowded).any (fun built =>
    let cell := afterCalls built.2 [.loadClass guardedB] { state := built.2.state }
    (crowdedEntry built.2).any fun found =>
      found.2 == [1, 2, 1, 9, 0] &&
        ((invalidateDependents built.2.image found.1).finish unanswered cell).1 ==
          { invalidated := 2, deoptimized := 1, alreadyInvalidated := 1, stubsSkipped := 1 }) =
        true := by
  decide +kernel

theorem sweeps_exact_crowded : ∃ (library : Library) (heap : Heap)
    (start : (service heap.image).Course) (entry : ClassEntry) (asked : List Engine.Request)
    (report : SweepReport) (last : Cell),
    ((Heap.create library).run []).1 = .ok heap ∧ Reaches heap Native start ∧
    heap.image.library.dependentsOf entry.record = .ok [1, 2, 1, 9, 0] ∧
    (invalidateDependents heap.image entry start.state).Concludes asked report last ∧
    report = { invalidated := 2, deoptimized := 1, alreadyInvalidated := 1, stubsSkipped := 1 } ∧
    Swept [1, 2, 1, 9, 0] start.state.state asked report last.state ∧
    ∃ finish, Reaches heap (OrSweep Native entry) finish ∧ finish.state = last ∧
      ∀ further again final,
        (invalidateDependents heap.image entry finish.state).Concludes further again final →
        again.invalidated = 0 ∧ again.deoptimized = 0 ∧ further = [] ∧ again.total = 4 := by
  obtain ⟨⟨library, heap⟩, built, swept⟩ := (Option.any_eq_true _ _).mp crowded_swept
  obtain ⟨⟨entry, dependents⟩, found, counted⟩ := (Option.any_eq_true _ _).mp swept
  obtain ⟨-, created⟩ := built_some built
  simp only [Bool.and_eq_true, beq_iff_eq] at counted
  obtain ⟨rfl, counted⟩ := counted
  have lists : heap.image.library.dependentsOf entry.record = .ok [1, 2, 1, 9, 0] := by
    simp only [crowdedEntry, Option.bind_eq_bind, Option.bind_eq_some_iff, Option.pure_def,
      Option.some.injEq, Prod.mk.injEq, Outcome.toOption_some] at found
    obtain ⟨_, -, _, listed, rfl, rfl⟩ := found
    exact listed
  have native (call : Call) (among : call ∈ [.loadClass guardedB])
      (course : (service heap.image).Course) (_ : course.pending = []) :
      Native course (.call call) :=
    fun code same => by simp [Task.call.inj same] at among
  obtain ⟨start, onward, -, state⟩ := calls_carried [.loadClass guardedB] native
    { state := { state := heap.state } } rfl
  have reached : Reaches heap Native start := ⟨{}, [], onward⟩
  rw [← state] at counted
  have concludes := Dialogue.Concludes.of_table unanswered
    (invalidateDependents heap.image entry start.state)
  obtain ⟨-, does⟩ := @sweeps_exact library [] heap Native (OrSweep Native entry) start entry _
    created reached lists
  obtain ⟨swept, ⟨finish, steps, same, -⟩, idempotent⟩ := does _ _ _ concludes
  have ended : Reaches heap (OrSweep Native entry) finish :=
    ⟨{}, [], (Service.steps_widen (fun _ _ => .inl) onward).trans steps⟩
  refine ⟨library, heap, start, entry, _, _, _, created, reached, lists, concludes, counted, swept,
    finish, ended, same, fun further again final second => ?_⟩
  obtain ⟨none, idle, silent, total⟩ := idempotent finish finish ended same .refl _ _ _ second
  refine ⟨none, idle, silent, total.trans ?_⟩
  exact congrArg SweepReport.total counted

end Precompiled.Heap
