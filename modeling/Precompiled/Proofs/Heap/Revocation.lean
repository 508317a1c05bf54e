import Precompiled.Proofs.Heap.Absence
import Precompiled.Proofs.Heap.Departure
import Precompiled.Proofs.Heap.Ownership

/-! Revocation. A live class that is redefined or unloaded, while the engine does not
call back, leaves nothing behind that could run: neither code that it holds nor code
that depends on it. This is for good. Its code can come back only when the class is
presented anew as one that was not redefined, be it to be linked or only to be
matched. -/
namespace Precompiled.Heap

open Relation (ReflTransGen)

variable {heap : Heap} {library : Library} {journal : Journal} {klass : ClassRef} {call : Call}
  {start finish later : (service heap.image).Course} {post : State → Prop}

/-! ## Carrying out a call -/

/-- Nothing but walks may begin. -/
def Aside {image : Image} (_ : (service image).Course) (task : Task) : Prop :=
  ∀ call, task ≠ .call call

theorem Aside.alone {image : Image} {course : (service image).Course} {task : Task}
    (aside : Aside course task) : Alone course task :=
  fun call same => absurd same (aside call)

/-- The course `finish` is one that `start` may take to when a call is begun and carried
out, with nothing but walks going on meanwhile. -/
structure Carried (call : Call) (start finish : (service heap.image).Course) : Prop where
  onward : ReflTransGen (Service.Step Aside) (start.begin (Task.call call)) finish
  calm : Calm finish

/-- Every call comes to its end. -/
theorem carried_exists (call : Call) (start : (service heap.image).Course) :
    ∃ finish, Carried call start finish := by
  obtain ⟨finish, onward, idle⟩ :=
    Service.Course.comes_to_rest blank (start.begin (Task.call call))
  refine ⟨finish, onward, fun waiting among => ?_⟩
  rw [idle] at among
  cases among

/-- A call that is carried out brings about what it ensures. -/
theorem Carried.attains (consistent : heap.image.Consistent)
    (created : ((Heap.create library).run journal).1 = .ok heap)
    (reached : Reaches heap Alone start)
    (calm : Calm start) (beside : ∀ before after, post before → before.Beside after → post after)
    (ensures : Ensures (fun state => state = start.state.state) (perform heap.image call)
      fun _ => post)
    (carried : Carried call start finish) : post finish.state.state := by
  obtain ⟨counters, journal, reached⟩ := reached
  have resting := Service.Reaches.resting (orders_of_consistent consistent) (created_kept created)
    reached
  have begun : Service.Turns (fun task : Task => ∀ call, task ≠ .call call) undisturbed
      (fun cell => post cell.state) (start.begin (Task.call call)) :=
    resting.begin calm (fun walk => walk call rfl)
      fun known => restores_lift (ensures _ start.state rfl)
  have orders : @Service.Orders _ _ (service heap.image) Aside
      (fun task => ∀ call, task ≠ .call call)
      undisturbed fun cell => post cell.state :=
    orders_of_ensures (fun _ _ => Aside.alone) beside
      fun course call aside => absurd rfl (aside call)
  exact (begun.steps orders carried.onward).rest carried.calm

/-! ## A live class goes -/

/-- The calls by which a live class goes. -/
inductive Goes (klass : ClassRef) : Call → Prop where
  | flush : Goes klass (.flush klass)
  | unload : Goes klass (.unload klass)

/-- What a live class leaves behind when it goes. -/
structure Revoked (klass : ClassRef) (start finish : (service heap.image).Course) : Prop where
  unbound : finish.state.state.binding? klass = none
  /-- Nothing that is executable is held by the class. -/
  released : ∀ codeId code, finish.state.state.executable? codeId = some code →
    code.holder ≠ some klass
  /-- What depended on the class was invalidated, except for stubs. -/
  dependents : ∀ codeId, isDependent heap.image start.state.state klass codeId = true →
    finish.state.state.Dead codeId
  others : ∀ other, other ≠ klass →
    finish.state.state.binding? other = start.state.state.binding? other

/-- What a live class leaves behind, besides, when it is unloaded. -/
structure Unloaded (klass : ClassRef) (start finish : (service heap.image).Course) : Prop where
  metaspace : ∀ index, finish.state.state.metaspace.get index ≠ some klass
  /-- Nothing of its class of the blob is left to be linked. -/
  retired : ∀ classId codeId, start.state.state.binding? klass = some classId →
    heap.image.Assigns codeId classId → finish.state.state.phase? codeId ≠ some .unresolved

/-- Calls begin alone, and none of them presents the live class as one that was not
redefined. -/
def Barred {image : Image} (klass : ClassRef) (course : (service image).Course) (task : Task) :
    Prop :=
  Alone course task ∧ ∀ call, task = .call call → Withholds klass call

/-- What has gone stays away. -/
structure Permanent (klass : ClassRef) (finish : (service heap.image).Course) : Prop where
  /-- What was invalidated stays so, whatever is begun from then on. -/
  invalidated : ∀ admits later, ReflTransGen (Service.Step admits) finish later → ∀ codeId,
    finish.state.state.phase? codeId = some .invalidated →
      later.state.state.phase? codeId = some .invalidated
  /-- No code of the class becomes executable, and no slot receives any. -/
  barred : ∀ later, ReflTransGen (Service.Step (Barred klass)) finish later → ∀ codeId code,
    code.holder = some klass → later.state.state.executable? codeId ≠ some code ∧
      (later.state.state.Holds codeId code → finish.state.state.Holds codeId code)

/-! ## What it leaves behind -/

/-- A dead slot is not one to be linked. -/
theorem State.Dead.settled {state : State} {codeId : Nat} (dead : state.Dead codeId)
    (orderly : state.Orderly) : state.phase? codeId ≠ some .unresolved := by
  intro phase
  obtain ⟨slot, found, unresolved⟩ := Option.map_eq_some_iff.mp phase
  rcases dead slot found with gone | ⟨stub, held, -⟩
  · cases unresolved.symm.trans gone
  · exact ((orderly codeId slot found).handle stub held).1 unresolved

theorem Alone.native {image : Image} {course : (service image).Course} {task : Task}
    (alone : Alone course task) : Native course task :=
  fun code same => (alone _ same).2 code rfl

theorem Carried.reached (reached : Reaches heap Alone start) (calm : Calm start)
    (goes : Goes klass call) (carried : Carried call start finish) : Reaches heap Alone finish := by
  have begun : Service.Step Alone start (start.begin (Task.call call)) := by
    apply Service.Step.call
    rintro own ⟨⟩
    refine ⟨calm, fun code same => ?_⟩
    cases goes <;> cases same
  obtain ⟨counters, journal, reached⟩ := reached
  refine ⟨counters, journal, ?_⟩
  exact (reached.tail begun).trans (Service.steps_widen (fun _ _ => Aside.alone) carried.onward)

section Calm

variable (consistent : heap.image.Consistent)
  (created : ((Heap.create library).run journal).1 = .ok heap) (reached : Reaches heap Alone start)
  (calm : Calm start)
include consistent created reached calm

/-- A live class that is not known is not bound. -/
theorem unknown_unbound (unknown : entryOf heap.image start.state.state klass = none) :
    start.state.state.binding? klass = none := by
  cases bound : start.state.state.binding? klass with
  | none => rfl
  | some classId =>
    obtain ⟨own, impossible, -⟩ :=
      entryOf_bound (reached.kept consistent created calm) unknown.symm bound
    cases impossible

/-- While no call is under way, code that is executable has a holder that is bound. -/
theorem released_of_unbound (unbound : start.state.state.binding? klass = none) {codeId : Nat}
    {code : LinkedCode} (executable : start.state.state.executable? codeId = some code) :
    code.holder ≠ some klass := by
  intro own
  by_cases method : code.isStub = true
  · have native : Reaches heap Native start := by
      obtain ⟨counters, journal, reached⟩ := reached
      exact ⟨counters, journal, Service.steps_widen (fun _ _ => Alone.native) reached⟩
    have unheld := native.unheld created codeId code (holds_of_executable executable).1 method
    cases unheld.symm.trans own
  · have runs : start.state.state.Runs codeId code :=
      runs_iff.mpr ⟨executable, by simpa using method⟩
    obtain ⟨classId, holder, -, same, -, bound⟩ :=
      (reached.kept consistent created calm).held codeId code runs
    obtain rfl := Option.some.inj (own.symm.trans same)
    rcases bound with bound | spared
    · cases unbound.symm.trans bound
    · exact spared

/-- What the call by which a live class goes brings about. -/
theorem goes_attains (goes : Goes klass call) :
    Ensures (fun state => state = start.state.state) (perform heap.image call) fun _ state =>
      (∀ codeId, Condemns heap.image start.state.state call codeId → state.Dead codeId) ∧
        Forgotten klass start.state.state state ∧
        (call = .unload klass → ∀ index, state.metaspace.get index ≠ some klass) := by
  have condemned :=
    perform_condemns (fun _ _ => State.Beside.grows) heap.image call start.state.state
  refine condemned.and ?_
  cases goes with
  | flush =>
    have forgets : Ensures _ (flush heap.image klass) _ :=
      flush_forgets klass start.state.state (unknown_unbound consistent created reached calm)
    exact forgets.to_weaker fun _ _ forgotten => ⟨forgotten, nofun⟩
  | unload =>
    have forgets : Ensures _ (unload heap.image klass) _ := unload_forgets klass start.state.state
    exact forgets.to_weaker fun _ _ both => ⟨both.1, fun _ => both.2⟩

theorem carried_brings (goes : Goes klass call) (carried : Carried call start finish) :
    (∀ codeId, Condemns heap.image start.state.state call codeId →
        finish.state.state.Dead codeId) ∧
      Forgotten klass start.state.state finish.state.state ∧
      (call = .unload klass → ∀ index, finish.state.state.metaspace.get index ≠ some klass) := by
  refine carried.attains consistent created reached calm ?_
    (goes_attains consistent created reached calm goes)
  rintro before after ⟨condemned, forgotten, cleared⟩ beside
  refine ⟨fun codeId doomed => beside.grows.dead (condemned codeId doomed), ?_⟩
  rw [State.Beside] at beside
  rw [beside]
  exact ⟨forgotten, cleared⟩

theorem revoked_of_carried (goes : Goes klass call) (carried : Carried call start finish) :
    Revoked klass start finish := by
  obtain ⟨condemned, forgotten, -⟩ := carried_brings consistent created reached calm goes carried
  have unbound : finish.state.state.binding? klass = none := by
    rw [forgotten klass, if_pos rfl]
  refine
    { unbound := unbound
      released := ?_
      dependents := ?_
      others := ?_ }
  · intro codeId code executable
    have onward := carried.reached reached calm goes
    exact released_of_unbound consistent created onward carried.calm unbound executable
  · intro codeId depends
    cases goes with
    | flush => exact condemned codeId (.flushed depends)
    | unload => exact condemned codeId (.unloaded depends)
  · intro other apart
    rw [forgotten other, if_neg apart]

theorem unloaded_of_carried (carried : Carried (.unload klass) start finish) :
    Unloaded klass start finish := by
  obtain ⟨condemned, -, cleared⟩ := carried_brings consistent created reached calm .unload carried
  have kept := (carried.reached reached calm .unload).kept consistent created carried.calm
  refine ⟨cleared rfl, fun classId codeId bound assigned => ?_⟩
  obtain ⟨entry, known, rfl⟩ := entryOf_bound (reached.kept consistent created calm) rfl bound
  exact (condemned codeId (.retired known assigned)).settled kept.orderly

/-! ## What stays away -/

/-- While the live class is barred and no call is under way, it is absent. -/
theorem absent_of_barred (unbound : start.state.state.binding? klass = none)
    (onward : ReflTransGen (Service.Step (Barred klass)) start later) (rest : Calm later) :
    Absent klass (fun code => start.state.state.Holds code.codeId code) later.state.state := by
  have kept := reached.kept consistent created calm
  obtain ⟨counters, journal, reached⟩ := reached
  have resting := Service.Reaches.resting (orders_of_consistent consistent) (created_kept created)
    reached
  have absent : Absent klass (fun code => start.state.state.Holds code.codeId code)
      start.state.state := by
    refine ⟨kept.orderly, unbound, ?_⟩
    rintro codeId code ⟨slot, found, held⟩ -
    obtain rfl := ((kept.orderly codeId slot found).handle code held).2
    exact ⟨slot, found, held⟩
  have orders : @Service.Orders _ _ (service heap.image) (Barred klass)
      (fun task => ∀ call, task ≠ .call call) undisturbed fun cell =>
        Absent klass (fun code => start.state.state.Holds code.codeId code) cell.state :=
    orders_of_ensures (fun _ _ barred => barred.1) Absent.beside fun course call barred =>
      call_keeps_absent (barred.2 call rfl)
  exact ((resting.rebase calm absent).steps orders onward).rest rest

/-- While the live class is barred, even in the middle of a call, no slot receives code
of it. -/
theorem held_before (unbound : start.state.state.binding? klass = none)
    (onward : ReflTransGen (Service.Step (Barred klass)) start later) {codeId : Nat}
    {code : LinkedCode} (own : code.holder = some klass)
    (holds : later.state.state.Holds codeId code) : start.state.state.Holds codeId code := by
  -- what is held in the middle of a call is held when the call has replied
  obtain ⟨last, further, idle⟩ := Service.Course.comes_to_rest blank later
  have rest : Calm last := fun waiting among => by simp [idle] at among
  have absent :=
    absent_of_barred consistent created reached calm unbound (onward.trans further) rest
  have meanwhile : Reaches heap Alone later := by
    obtain ⟨counters, journal, reached⟩ := reached
    exact ⟨counters, journal,
      reached.trans (Service.steps_widen (fun _ _ barred => barred.1) onward)⟩
  obtain ⟨slot, found, held⟩ := (meanwhile.grows further).holds holds
  obtain rfl := ((absent.orderly codeId slot found).handle code held).2
  exact absent.every _ code ⟨slot, found, held⟩ own

/-- While the live class is barred none of its code is executable. -/
theorem idle_of_barred (unbound : start.state.state.binding? klass = none)
    (onward : ReflTransGen (Service.Step (Barred klass)) start later) {codeId : Nat}
    {code : LinkedCode} (own : code.holder = some klass) :
    later.state.state.executable? codeId ≠ some code := by
  intro executable
  obtain ⟨holds, resolved⟩ := holds_of_executable executable
  obtain ⟨slot, found, held⟩ :=
    held_before consistent created reached calm unbound onward own holds
  have kept := reached.kept consistent created calm
  cases phase : slot.phase with
  | unresolved => exact ((kept.orderly codeId slot found).handle code held).1 phase
  | resolved =>
    have running : start.state.state.executable? codeId = some code :=
      executable?_some.mpr ⟨slot, found, phase, held⟩
    exact released_of_unbound consistent created reached calm unbound running own
  | invalidated =>
    have gone : start.state.state.phase? codeId = some .invalidated := by
      simp [State.phase?, found, phase]
    cases ((reached.grows onward).phase_final gone).symm.trans resolved

theorem permanent_of_unbound (unbound : start.state.state.binding? klass = none) :
    Permanent klass start where
  invalidated _ _ onward _ gone := (reached.grows onward).phase_final gone
  barred _ onward _ _ own :=
    ⟨idle_of_barred consistent created reached calm unbound onward own,
      held_before consistent created reached calm unbound onward own⟩

end Calm

section Built

variable {edits : List Blob.Edit} {settings : Blob.BuildSettings} {engineVersion name : String}
  {id : Nat} {options : LoadOptions} {loading : Journal}

/-- In every heap of a built blob a live class that is redefined or unloaded is gone
completely and for good, as long as the engine does not call back in between and the
class is not presented anew as one that was not redefined. -/
theorem revocation (known : Blob.Edits.Known edits)
    (addressable : (Blob.Draft.describe settings engineVersion edits).Addressable)
    (loaded : ((Library.load (Blob.Draft.describe settings engineVersion edits).assemble name id
      options).run loading).1 = .ok library)
    (created : ((Heap.create library).run journal).1 = .ok heap)
    (reached : Reaches heap Alone start) (calm : Calm start) (goes : Goes klass call) :
    (∃ finish, Carried call start finish) ∧ ∀ finish, Carried call start finish →
      Revoked klass start finish ∧ (call = .unload klass → Unloaded klass start finish) ∧
        Permanent klass finish := by
  have consistent := built_consistent known addressable loaded created
  refine ⟨carried_exists call start, fun finish carried => ?_⟩
  have revoked := revoked_of_carried consistent created reached calm goes carried
  have onward := carried.reached reached calm goes
  refine ⟨revoked, ?_, permanent_of_unbound consistent created onward carried.calm revoked.unbound⟩
  rintro rfl
  exact unloaded_of_carried consistent created reached calm carried

/-! ## One class with one method -/

/-- The live class of the sample after it was redefined. -/
def staleView : ClassView :=
  { sampleView with redefined := true }

/-- A call begun at rest is carried out, and comes to rest again. -/
theorem carried_at_rest (call : Call) (start : (service heap.image).Course)
    (idle : start.pending = []) : ∃ finish, Carried call start finish ∧ finish.pending = [] ∧
      finish.state = afterCalls heap [call] start.state := by
  obtain ⟨finish, onward, rest, state⟩ := Service.Course.halt_replies lavish
    (start.note (.called (Task.call call))) (Task.call call)
    (Task.perform heap.image (.call call) start.state)
  have left := rest.trans idle
  exact ⟨finish, ⟨onward, calm_of_idle left⟩, left, state⟩

theorem revocation_single : ∃ (library : Library) (heap : Heap) (start : (service heap.image).Course),
    ((Library.load (Blob.Draft.describe {} "1" single).assemble "lib" 0
      { verifyChecksum := false }).run []).1 = .ok library ∧
    ((Heap.create library).run []).1 = .ok heap ∧ Reaches heap Alone start ∧ Calm start ∧
    sampleRuns start.state = true ∧ Goes sampleView.klass (.flush sampleView.klass) ∧
    (∃ finish, Carried (.flush sampleView.klass) start finish) ∧
    ∀ finish, Carried (.flush sampleView.klass) start finish →
      Revoked sampleView.klass start finish ∧ Permanent sampleView.klass finish := by
  obtain ⟨library, heap, start, loaded, created, reached, calm, -, -, runs⟩ := single_at_rest
  have goes : Goes sampleView.klass (.flush sampleView.klass) := .flush
  have revoked := revocation single_known single_addressable loaded created reached calm goes
  refine ⟨library, heap, start, loaded, created, reached, calm, runs, goes, revoked.1, ?_⟩
  intro finish carried
  obtain ⟨gone, -, permanent⟩ := revoked.2 finish carried
  exact ⟨gone, permanent⟩

set_option maxRecDepth 1000000 in
theorem single_revived : (built? single).any (fun built =>
    let flushed := afterCalls built.2 [.flush sampleView.klass]
      (afterCalls built.2 [.resolveClass sampleView] { state := built.2.state })
    (flushed.state.slots[0]?.bind Slot.handle).isNone &&
      sampleRuns (afterCalls built.2 [.resolveClass sampleView, .loadClass staleView] flushed)) =
        true := by
  decide +kernel

/-- Calls begin alone, and no call to link presents the live class of the sample as one
that was not redefined. Calls only to match it may. -/
def SampleUnlinked {image : Image} (course : (service image).Course) (task : Task) : Prop :=
  Alone course task ∧ ∀ view, task = .call (.loadClass view) → view.klass = sampleView.klass →
    view.redefined = true

/-- The live class is redefined, matched as one that was not, and linked as one that
was: its method is executable again. -/
theorem matching_revives : ∃ (library : Library) (heap : Heap)
    (start finish later : (service heap.image).Course) (code : LinkedCode),
    ((Library.load (Blob.Draft.describe {} "1" single).assemble "lib" 0
      { verifyChecksum := false }).run []).1 = .ok library ∧
    ((Heap.create library).run []).1 = .ok heap ∧ Reaches heap Alone start ∧ Calm start ∧
    Carried (.flush sampleView.klass) start finish ∧
    ReflTransGen (Service.Step SampleUnlinked) finish later ∧
    code.holder = some sampleView.klass ∧ later.state.state.executable? 0 = some code ∧
    ¬finish.state.state.Holds 0 code := by
  obtain ⟨⟨library, heap⟩, built, both⟩ := (Option.any_eq_true _ _).mp single_revived
  obtain ⟨loaded, created⟩ := built_some built
  obtain ⟨free, runs⟩ := Bool.and_eq_true_iff.mp both
  obtain ⟨start, before, idle, first⟩ := calls_carried [.resolveClass sampleView]
    (fun call among course idle => alone_of_idle idle fun code same => by simp [same] at among)
    { state := { state := heap.state } } rfl
  obtain ⟨finish, carried, rest, second⟩ := carried_at_rest (.flush sampleView.klass) start idle
  have unlinked (call : Call) (among : call ∈ [.resolveClass sampleView, .loadClass staleView])
      (course : (service heap.image).Course) (idle : course.pending = []) :
      SampleUnlinked course (.call call) := by
    refine ⟨alone_of_idle idle fun code same => by simp [same] at among, ?_⟩
    rintro view ⟨⟩ -
    obtain rfl : view = staleView := by simpa using among
    rfl
  obtain ⟨later, onward, -, third⟩ := calls_carried _ unlinked finish rest
  rw [first] at second
  rw [second] at third
  obtain ⟨code, executable, own⟩ := (Option.any_eq_true _ _).mp runs
  refine ⟨library, heap, start, finish, later, code, loaded, created, ⟨{}, [], before⟩,
    calm_of_idle idle, carried, onward, by simpa using own, ?_, ?_⟩
  · rw [third]
    exact executable
  · rintro ⟨slot, found, held⟩
    rw [second] at found
    simp [found, held] at free

end Built

end Precompiled.Heap
