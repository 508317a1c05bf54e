import Precompiled.Proofs.Heap.Integrity
import Precompiled.Proofs.Heap.Revocation

/-! Answers from a binding. Between the moment a live class was bound and a later question
for it anything may have happened to the heap, and the answer from the binding checks
nothing. All the same the class would pass the gate again: its loader and its metaspace slot
cannot be lost while it is bound, and its record never changes. -/
namespace Precompiled.Heap

open Relation (ReflTransGen)

variable {heap : Heap} {image : Image} {before middle after state : State} {klass : ClassRef}
  {view other : ClassView} {call : Call} {task : Task} {past : Past image} {cell : Cell}

/-! ## The view a class is bound under -/

/-- What a live class was bound to at the last moment of the past. -/
def lately (past : Past image) (klass : ClassRef) : Option Nat :=
  past.head?.bind fun moment => moment.state.state.binding? klass

/-- The live class of the view is bound since a call presented the view. -/
inductive BoundUnder : Past image → ClassView → Prop where
  /-- A call that presents the view came to a halt, and the class is newly bound. -/
  | bound {past : Past image} {event : (service image).Event} {cell : Cell} {call : Call}
    {view : ClassView} (own : event.call = .call call) (presented : Presents call view)
    (unbound : lately past view.klass = none) (now : cell.state.binding? view.klass ≠ none) :
    BoundUnder (⟨event, cell⟩ :: past) view
  /-- The class is still bound. -/
  | lasts {past : Past image} {event : (service image).Event} {cell : Cell} {view : ClassView}
    (bound : BoundUnder past view) (now : cell.state.binding? view.klass ≠ none) :
    BoundUnder (⟨event, cell⟩ :: past) view

theorem BoundUnder.now (bound : BoundUnder past view) : lately past view.klass ≠ none := by
  cases bound with
  | bound own presented unbound now => exact now
  | lasts bound now => exact now

theorem Presents.unique (one : Presents call view) (two : Presents call other) : view = other := by
  cases one <;> cases two <;> rfl

/-- A live class is bound under one view only. -/
theorem BoundUnder.unique (one : BoundUnder past view) (two : BoundUnder past other)
    (same : view.klass = other.klass) : view = other := by
  induction one with
  | bound own presented unbound now =>
    cases two with
    | bound others claimed =>
      cases own.symm.trans others
      exact presented.unique claimed
    | lasts earlier => exact absurd (same ▸ unbound) earlier.now
  | lasts earlier now ih =>
    cases two with
    | bound own presented unbound => exact absurd (same ▸ unbound) earlier.now
    | lasts bound => exact ih bound same

/-! ## Credentials -/

/-- The live class of the view is bound to a class of the blob that it was compiled for, and
that class has the loader of the view. -/
def Endorsed (image : Image) (view : ClassView) (state : State) : Prop :=
  ∃ entry, Matches image entry view ∧ state.binding? view.klass = some entry.classId ∧
    state.loader? entry.classId = some view.loader

/-- What a task does to bindings and loaders: no loader is lost, a binding is lost only if
its class goes, and one is new only if the task presents its class. -/
structure Turnover (image : Image) (task : Task) (before after : State) : Prop where
  loaders : before.KeepsLoaders after
  kept : ∀ klass classId, before.binding? klass = some classId →
    after.binding? klass = some classId ∨ task = .call (.flush klass) ∨ task = .call (.unload klass)
  fresh : ∀ klass classId, after.binding? klass = some classId →
    before.binding? klass = some classId ∨ before.binding? klass = none ∧
      ∃ call view, task = .call call ∧ Presents call view ∧ view.klass = klass ∧
        Endorsed image view after

/-- Whoever stays bound keeps the credentials. -/
theorem Endorsed.turnover {classId : Nat} (endorsed : Endorsed image view before)
    (turnover : Turnover image task before after)
    (still : after.binding? view.klass = some classId) : Endorsed image view after := by
  obtain ⟨entry, fits, bound, taken⟩ := endorsed
  refine ⟨entry, fits, ?_, turnover.loaders _ _ taken⟩
  rcases turnover.fresh _ _ still with same | ⟨unbound, -⟩
  · rw [still, ← same, bound]
  · cases bound.symm.trans unbound

namespace Turnover

theorem of_bindings (loaders : before.KeepsLoaders after)
    (bindings : ∀ klass, after.binding? klass = before.binding? klass) :
    Turnover image task before after where
  loaders := loaders
  kept klass classId bound := .inl (by rwa [bindings])
  fresh klass classId bound := .inl (by rwa [bindings] at bound)

theorem refl (state : State) : Turnover image task state state :=
  .of_bindings (fun _ _ bound => bound) fun _ => rfl

/-- A task that presents a class takes no binding away. -/
theorem trans (early : Turnover image task before middle) (late : Turnover image task middle after) :
    Turnover image task before after where
  loaders classId loader bound := late.loaders classId loader (early.loaders classId loader bound)
  kept klass classId bound := by
    rcases early.kept klass classId bound with still | gone
    · exact late.kept klass classId still
    · exact .inr gone
  fresh klass classId bound := by
    rcases late.fresh klass classId bound with same | ⟨unbound, call, view, rfl, presented, rfl, own⟩
    · rcases early.fresh klass classId same with old | ⟨unbound, call, view, own, presented, rfl, fits⟩
      · exact .inl old
      · exact .inr ⟨unbound, call, view, own, presented, rfl, fits.turnover late bound⟩
    · refine .inr ⟨?_, call, view, rfl, presented, rfl, own⟩
      cases held : before.binding? view.klass with
      | none => rfl
      | some old =>
        rcases early.kept _ old held with still | gone | gone
        · cases unbound.symm.trans still
        · cases gone
          cases presented
        · cases gone
          cases presented

end Turnover

/-! ## Changes -/

theorem Turnover.of_same (loaders : before.KeepsLoaders after)
    (same : after.bindings = before.bindings) : Turnover image task before after :=
  .of_bindings loaders fun klass => by rw [State.binding?, same, State.binding?]

/-- A live class that goes is the only one to lose its binding. -/
theorem Turnover.unbind (gone : task = .call (.flush klass) ∨ task = .call (.unload klass)) :
    Turnover image task state (state.unbind klass) where
  loaders := .of_same rfl
  kept other classId bound := by
    by_cases same : other = klass
    · subst same
      exact .inr gone
    · exact .inl (by rwa [binding_unbind, if_neg same])
  fresh other classId bound := by
    rw [binding_unbind] at bound
    split at bound
    · cases bound
    · exact .inl bound

/-- Whoever passes the gate has credentials. -/
theorem Endorsed.of_gate {entry : ClassEntry} (seats : Seats image state)
    (fits : Matches image entry view) (claimed : (claimPlace entry view state).1 = true) :
    Endorsed image view ((claimPlace entry view state).2.bind view.klass entry.classId) := by
  obtain ⟨index, slot, held, taken⟩ := claimPlace_claimed (seats.inside fits) claimed
  exact ⟨entry, fits, by rw [binding_bind, if_pos rfl], taken⟩

theorem Change.turnover {heard : Engine.signature.Heard} (seats : Seats image before)
    (change : Change image call heard before after) :
    Turnover image (.call call) before after := by
  have loaders := change.keepsLoaders
  cases change with
  | link linked => exact .of_same loaders linked.bindings
  | revoke revoked => exact .of_same loaders (by cases revoked <;> rfl)
  | refuse fits taken => exact .of_same loaders (claimPlace_bindings _ _ _)
  | @bind entry view presented fits unbound claimed =>
    have free := seats.unbound unbound
    have others : ∀ klass, klass ≠ view.klass →
        ((claimPlace entry view before).2.bind view.klass entry.classId).binding? klass =
          before.binding? klass := fun klass apart => by
      rw [binding_bind, if_neg apart, State.binding?, claimPlace_bindings, State.binding?]
    refine { loaders := loaders, kept := ?_, fresh := ?_ }
    · intro klass classId bound
      have apart : klass ≠ view.klass := by
        rintro rfl
        cases free.symm.trans bound
      exact .inl ((others klass apart).trans bound)
    · intro klass classId bound
      by_cases same : klass = view.klass
      · subst same
        exact .inr ⟨free, call, view, rfl, presented, rfl, .of_gate seats fits claimed⟩
      · exact .inl ((others klass same).symm.trans bound)
  | unbind gone => exact .unbind (gone.imp (congrArg Task.call) (congrArg Task.call))
  | drop gone dropped => exact .of_same loaders (by cases dropped; rfl)
  | relocate collected relocated => exact .of_same loaders (by cases relocated; rfl)
  | routines addresses => exact .of_same loaders rfl
  | disable => exact .of_same loaders rfl
  | count given => exact .of_same loaders (admitCode_frame image _ before).2.2

theorem Task.Change.turnover {heard : surroundings.Heard} (seats : Seats image before)
    (change : Task.Change image task heard before after) : Turnover image task before after := by
  cases change with
  | call change => exact Heap.Change.turnover seats change
  | collect relocated =>
    have loaders : before.KeepsLoaders after := by
      cases relocated
      exact .of_same rfl
    exact .of_same loaders (by cases relocated; rfl)

theorem Task.Ask.turnover {question : Question} (asked : Task.Ask image task question before after) :
    Turnover image task before after := by
  have loaders := asked.keepsLoaders
  cases asked with
  | visitor shown => exact .of_same loaders (by rw [shown.same])
  | engine asked => exact .of_same loaders asked.bindings

/-- A sweep binds nobody and lets nobody go, so any task may do what it does. -/
theorem Turnover.of_sweep {name : String}
    (turnover : Turnover image (.call (.sweep name)) before after) :
    Turnover image task before after where
  loaders := turnover.loaders
  kept klass classId bound :=
    (turnover.kept klass classId bound).imp_right fun gone => gone.elim nofun nofun
  fresh klass classId bound := by
    rcases turnover.fresh klass classId bound with same | ⟨-, call, view, own, presented, -⟩
    · exact .inl same
    · cases own
      cases presented

theorem Turnover.leave (leaves : Leaves klass before after) :
    Turnover image (.call (.unload klass)) before after := by
  have loaders : (before.unbind klass).KeepsLoaders after := .of_same (by rw [leaves.frame]; rfl)
  have unbound : Turnover image (.call (.unload klass)) before (before.unbind klass) :=
    .unbind (.inr rfl)
  exact unbound.trans (.of_same loaders (by rw [leaves.frame]))

/-! ## Courses -/

/-- Every task leaves a heap intact, and does nothing else to bindings and loaders than
it may. -/
def tenure (image : Image) : (service image).Customs where
  change task _ before after := Intact image before.state →
    Intact image after.state ∧ Turnover image task before.state after.state
  question task _ _ before after := Intact image before.state →
    Intact image after.state ∧ Turnover image task before.state after.state
  rely before after := Intact image before.state → Intact image after.state
  reply _ _ _ _ := True

theorem tenure_follows (task : Task) :
    (task.perform image).Follows ((tenure image).conduct task) := by
  refine follows_by_acts ?_ ?_ ?_
  · rintro own heard before after acts (same | change) intact
    · rw [same]
      exact ⟨intact, .refl _⟩
    · refine ⟨intact.taskChange acts.stays change, ?_⟩
      cases acts with
      | plain => exact change.turnover intact.seats
      | swept => exact (change.turnover intact.seats).of_sweep
  · intro own heard request before after acts asked intact
    refine ⟨intact.taskAsk asked, ?_⟩
    cases acts with
    | plain => exact asked.turnover
    | swept => exact asked.turnover.of_sweep
  · rintro klass rfl heard before after leaves intact
    exact ⟨intact.leave leaves, .leave leaves⟩

theorem tenure_kept : (tenure image).Kept fun _ => True where
  steady _ intact := intact
  lasting early late intact := late (early intact)
  changed _ change intact := (change intact).1
  asked _ asked intact := (asked intact).1
  drifted {before after} drifted intact := by
    have same : after.state = before.state := drifted
    rwa [same]
  performed task _ := tenure_follows task

/-- Changes in a row turn over no more than a task may. -/
theorem tenure_changes {heard : surroundings.Heard} {before after : Cell}
    (changes : ReflTransGen ((tenure image).change task heard) before after)
    (intact : Intact image before.state) :
    Intact image after.state ∧ Turnover image task before.state after.state := by
  induction changes with
  | refl => exact ⟨intact, .refl _⟩
  | tail _ change ih =>
    obtain ⟨still, late⟩ := change ih.1
    exact ⟨still, ih.2.trans late⟩

/-- Every bound class is bound under a view, and who is bound under a view has the
credentials for it. -/
structure Tenure (image : Image) (past : Past image) (state : State) : Prop where
  intact : Intact image state
  lately : ∀ klass, lately past klass = state.binding? klass
  under : ∀ klass classId, state.binding? klass = some classId →
    ∃ view, view.klass = klass ∧ BoundUnder past view
  endorsed : ∀ view, BoundUnder past view → Endorsed image view state

namespace Tenure

variable {event : (service image).Event}

/-- A moment that changes nothing changes nobody's tenure. -/
theorem note (tenure : Tenure image past cell.state) :
    Tenure image (⟨event, cell⟩ :: past) cell.state where
  intact := tenure.intact
  lately _ := rfl
  under klass classId bound := by
    obtain ⟨view, rfl, under⟩ := tenure.under klass classId bound
    exact ⟨view, rfl, .lasts under (by simp [bound])⟩
  endorsed view bound := by
    cases bound with
    | bound own presented unbound now => exact absurd ((tenure.lately _).symm.trans unbound) now
    | lasts bound now => exact tenure.endorsed view bound

/-- A task comes to a halt. -/
theorem halt (tenure : Tenure image past before) (own : event.call = task)
    (intact : Intact image cell.state) (turnover : Turnover image task before cell.state) :
    Tenure image (⟨event, cell⟩ :: past) cell.state where
  intact := intact
  lately _ := rfl
  under klass classId bound := by
    rcases turnover.fresh klass classId bound with same | ⟨unbound, call, view, rfl, presented, rfl, -⟩
    · obtain ⟨view, rfl, under⟩ := tenure.under klass classId same
      exact ⟨view, rfl, .lasts under (by simp [bound])⟩
    · exact ⟨view, rfl, .bound own presented ((tenure.lately _).trans unbound) (by simp [bound])⟩
  endorsed view bound := by
    cases bound with
    | @bound _ _ _ _ _ mine presented unbound now =>
      obtain ⟨classId, held⟩ := Option.ne_none_iff_exists'.mp now
      rcases turnover.fresh _ classId held with same | ⟨-, call, other, rfl, claimed, -, fits⟩
      · cases ((tenure.lately _).symm.trans unbound).symm.trans same
      · cases own.symm.trans mine
        rwa [presented.unique claimed]
    | lasts bound now =>
      obtain ⟨classId, held⟩ := Option.ne_none_iff_exists'.mp now
      exact (tenure.endorsed view bound).turnover turnover held

theorem sustained : (Heap.tenure image).Sustains (fun _ => True)
    fun past cell => Tenure image past cell.state where
  asked _ tenure changes asked := by
    obtain ⟨intact, early⟩ := tenure_changes changes tenure.intact
    obtain ⟨still, late⟩ := asked intact
    exact tenure.halt rfl still (early.trans late)
  replied _ tenure changes _ := by
    obtain ⟨intact, turnover⟩ := tenure_changes changes tenure.intact
    exact tenure.halt rfl intact turnover
  called _ tenure := tenure.note
  answered _ tenure := tenure.note
  drifted {_ before after} tenure drifted := by
    have same : after.state = before.state := drifted
    rwa [same]

end Tenure

/-- In a new heap nobody is bound. -/
theorem created_unbound {library : Library} {journal : Journal}
    (created : ((Heap.create library).run journal).1 = .ok heap) (klass : ClassRef) :
    heap.state.binding? klass = none := by
  obtain ⟨stubs, -, settled⟩ := create_ok.mp created
  obtain ⟨settles, -⟩ := settleAll_settles (fun _ member => member) initial_pristine settled
  rw [State.binding?, settles.frame.2]
  rfl

theorem Reaches.tenure {admits : (service heap.image).Course → Task → Prop} {library : Library}
    {journal : Journal} {course : (service heap.image).Course}
    (created : ((Heap.create library).run journal).1 = .ok heap)
    (reached : Reaches heap admits course) : Tenure heap.image course.past course.state.state := by
  obtain ⟨counters, journal, reached⟩ := reached
  have start : Tenure heap.image [] heap.state :=
    { intact := created_intact created
      lately := fun klass => (created_unbound created klass).symm
      under := fun klass classId bound => by cases (created_unbound created klass).symm.trans bound
      endorsed := nofun }
  exact Service.Reaches.holding tenure_kept Tenure.sustained (fun _ _ _ => trivial) start reached

/-! ## The gate again -/

/-- Whoever has its place may take it again, and nothing changes. -/
theorem claimPlace_again {entry : ClassEntry} {index : Nat}
    (slot : natural? entry.record.gotIndex = some index)
    (held : state.metaspace.get index = some view.klass)
    (taken : state.loader? entry.classId = some view.loader) :
    claimPlace entry view state = (true, state) := by
  simp [claimPlace, slot, held, State.bindLoader, taken, Got.setIfNull_held held]

/-- To bind a class to what it is bound to does nothing. -/
theorem binding_again {classId : Nat} (bound : state.binding? klass = some classId)
    (other : ClassRef) : (state.bind klass classId).binding? other = state.binding? other := by
  rw [binding_bind]
  split
  · rename_i same
    rw [same, bound]
  · rfl

theorem gate_again {entry : ClassEntry} (fits : Matches image entry view)
    (again : claimPlace entry view cell.state = (true, cell.state)) :
    gate image entry view cell = .done none cell := by
  simp [gate, fits.fresh, fits.fingerprint, fits.assertions, Operation.change, again]

/-- A class with credentials that is seated passes the gate, and keeps what it has. -/
theorem bindClass_again {entry : ClassEntry} (fits : Matches image entry view)
    (bound : cell.state.binding? view.klass = some entry.classId)
    (taken : cell.state.loader? entry.classId = some view.loader) (seats : Seats image cell.state) :
    ∃ after, bindClass image view cell = .done (.ok entry) after ∧
      after.state = cell.state.bind view.klass entry.classId := by
  obtain ⟨known, index, loader, found, slot, held, -⟩ := seats.seated _ _ bound
  obtain rfl : entry = known := Option.some.inj ((lookupClass_known fits.found).symm.trans found)
  have passed (counters : Counters) : gate image entry view { cell with counters } =
      .done none { cell with counters } := gate_again fits (claimPlace_again slot held taken)
  simp only [bindClass, findClass, fits.found, Operation.count, Operation.alter, Operation.note,
    Action.bind_apply, Action.update_apply, Action.pure_apply, Dialogue.bind_done, passed]
  exact ⟨_, rfl, rfl⟩

theorem resolveClass_cached {entry : ClassEntry}
    (bound : boundEntry image cell.state view.klass = some entry) :
    resolveClass image view cell = .done (.ok entry) cell := by
  simp [resolveClass, Operation.look, bound]

/-- Every bound class is bound under one view. Whenever the class is asked for under this
view, its binding answers what the gate would answer if it was looked up again; and if it
was, no table, no loader and no binding would change. -/
theorem binding_agrees {admits : (service heap.image).Course → Task → Prop} {library : Library}
    {journal : Journal} {course : (service heap.image).Course}
    (created : ((Heap.create library).run journal).1 = .ok heap)
    (reached : Reaches heap admits course) :
    (∀ klass classId, course.state.state.binding? klass = some classId →
      ∃! view, view.klass = klass ∧ BoundUnder course.past view) ∧
    ∀ view, BoundUnder course.past view → ∃ entry after,
      resolveClass heap.image view course.state = .done (.ok entry) course.state ∧
      bindClass heap.image view course.state = .done (.ok entry) after ∧
      after.state = { course.state.state with bindings := after.state.bindings } ∧
      ∀ klass, after.state.binding? klass = course.state.state.binding? klass := by
  have tenure := reached.tenure created
  refine ⟨?_, ?_⟩
  · intro klass classId bound
    obtain ⟨view, rfl, under⟩ := tenure.under klass classId bound
    exact ⟨view, ⟨rfl, under⟩, fun other others => others.2.unique under others.1⟩
  · intro view under
    obtain ⟨entry, fits, bound, taken⟩ := tenure.endorsed view under
    obtain ⟨after, passed, left⟩ := bindClass_again fits bound taken tenure.intact.seats
    have known : boundEntry heap.image course.state.state view.klass = some entry := by
      rw [boundEntry, bound]
      exact lookupClass_known fits.found
    refine ⟨entry, after, resolveClass_cached known, passed, by rw [left]; rfl, fun klass => ?_⟩
    rw [left]
    exact binding_again bound klass

/-- A class is linked, and then asked for under a view of a class that was redefined, and
swept. It stays bound. -/
def singleCalls : List Call :=
  [.loadClass sampleView, .resolveClass staleView, .sweep "A"]

set_option maxRecDepth 1000000 in
theorem single_bound : (built? single).any (fun built =>
    ((afterCalls built.2 singleCalls { state := built.2.state }).state.binding?
      sampleView.klass).isSome) = true := by
  decide +kernel

theorem binding_agrees_single : ∃ (library : Library) (heap : Heap)
    (course : (service heap.image).Course) (view : ClassView) (entry : ClassEntry) (after : Cell),
    ((Heap.create library).run []).1 = .ok heap ∧ Reaches heap (fun _ _ => True) course ∧
    view.klass = sampleView.klass ∧ BoundUnder course.past view ∧
    resolveClass heap.image view course.state = .done (.ok entry) course.state ∧
    bindClass heap.image view course.state = .done (.ok entry) after := by
  obtain ⟨⟨library, heap⟩, built, some⟩ := (Option.any_eq_true _ _).mp single_bound
  obtain ⟨-, created⟩ := built_some built
  obtain ⟨course, onward, -, state⟩ : ∃ finish : (service heap.image).Course,
      ReflTransGen (Service.Step fun _ _ => True) { state := { state := heap.state } } finish ∧
        finish.pending = [] ∧
          finish.state = afterCalls heap singleCalls { state := heap.state } :=
    calls_carried singleCalls (fun _ _ _ _ => trivial) _ rfl
  have reached : Reaches heap (fun _ _ => True) course := ⟨{}, [], onward⟩
  obtain ⟨classId, bound⟩ := Option.isSome_iff_exists.mp some
  obtain ⟨one, agrees⟩ := binding_agrees created reached
  obtain ⟨view, ⟨same, under⟩, -⟩ := one sampleView.klass classId (state ▸ bound)
  obtain ⟨entry, after, cached, passed, -⟩ := agrees view under
  exact ⟨library, heap, course, view, entry, after, created, reached, same, under, cached, passed⟩

end Precompiled.Heap
