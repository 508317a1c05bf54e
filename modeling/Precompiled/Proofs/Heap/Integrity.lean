import Precompiled.Proofs.Heap.Departure
import Precompiled.Proofs.Heap.Loading
import Precompiled.Proofs.Heap.Ownership
import Precompiled.Proofs.Heap.Parts

/-! What a heap is like whenever it is at rest or waits for an answer. Tables keep their
sizes, slots are in order, and whoever is bound is seated. Unloading takes a live class
out of the metaspace slot by slot, and its binding before that, but it asks nothing in
between, so nobody ever sees it half done. -/
namespace Precompiled.Heap

open Relation (ReflTransGen)

variable {heap : Heap} {image : Image} {before middle after state : State} {klass : ClassRef}
  {kept : State → Prop} {course : (service heap.image).Course}

/-! ## Sizes -/

/-- The tables of two states have the same sizes. -/
structure State.Sized (first second : State) : Prop where
  slots : second.slots.length = first.slots.length
  metaspace : second.metaspace.size = first.metaspace.size
  metadata : second.metadata.size = first.metadata.size
  objects : second.objects.size = first.objects.size

namespace State.Sized

theorem refl (state : State) : state.Sized state :=
  ⟨rfl, rfl, rfl, rfl⟩

theorem trans (early : before.Sized middle) (late : middle.Sized after) : before.Sized after where
  slots := late.slots.trans early.slots
  metaspace := late.metaspace.trans early.metaspace
  metadata := late.metadata.trans early.metadata
  objects := late.objects.trans early.objects

/-- Where slots grow only the tables have to be looked at. -/
theorem of_grows (grows : before.Grows after) (metaspace : after.metaspace.size = before.metaspace.size)
    (metadata : after.metadata = before.metadata) (objects : after.objects.size = before.objects.size) :
    before.Sized after :=
  ⟨grows.count, metaspace, by rw [metadata], objects⟩

end State.Sized

theorem claimPlace_sized (entry : ClassEntry) (view : ClassView) (state : State) :
    state.Sized (claimPlace entry view state).2 := by
  obtain ⟨same, -, -⟩ := bindLoader_frame entry.classId view.loader state
  have metaspace : (claimPlace entry view state).2.metaspace.size = state.metaspace.size := by
    unfold claimPlace
    split
    · rfl
    split
    · rfl
    dsimp only
    split
    · rw [same]
    · exact (Got.setIfNull_size _ _ _).trans (by rw [same])
  have reseated := claimPlace_reseated entry view state
  refine ⟨?_, metaspace, ?_, ?_⟩ <;> rw [reseated]

theorem Fill.sized {heard : Engine.signature.Heard} (filled : Fill image heard before after) :
    before.Sized after := by
  cases filled with
  | metaspace named told => exact ⟨rfl, Got.setIfNull_size _ _ _, rfl, rfl⟩
  | metadata named told => exact ⟨rfl, rfl, Got.setIfNull_size _ _ _, rfl⟩
  | object named told => exact ⟨rfl, rfl, rfl, Got.setIfNull_size _ _ _⟩

theorem Relocate.sized {moved : ObjectRef → Option ObjectRef → Prop}
    (relocated : Relocate moved before after) : before.Sized after := by
  cases relocated
  exact ⟨rfl, rfl, rfl, Got.replaceIf_size _ _ _ _⟩

theorem Drop.sized (dropped : Drop klass before after) : before.Sized after := by
  cases dropped
  exact ⟨rfl, Got.replaceIf_size _ _ _ _, rfl, rfl⟩

/-- Admitting code touches slots and the extent only. -/
theorem admitCode_sized (image : Image) (code : LinkedCode) (state : State) :
    state.Sized (state.admitCode image code).2 := by
  have frame := (admitCode_slot? image code state).1
  refine .of_grows (admitCode_touches image code state).grows ?_ ?_ ?_ <;> rw [frame]

theorem Change.sized {call : Call} {heard : Engine.signature.Heard}
    (change : Change image call heard before after) : before.Sized after := by
  have grows := change.touches.grows
  cases change with
  | link linked =>
    cases linked with
    | fill filled => exact filled.sized
    | stray => exact .of_grows grows rfl rfl rfl
  | revoke revoked => cases revoked <;> exact .of_grows grows rfl rfl rfl
  | refuse fits taken => exact claimPlace_sized _ _ _
  | bind presented fits unbound claimed =>
    exact (claimPlace_sized _ _ before).trans ⟨rfl, rfl, rfl, rfl⟩
  | relocate collected relocated => exact relocated.sized
  | count given => exact admitCode_sized _ _ _
  | drop gone dropped => exact dropped.sized
  | unbind gone => exact .of_grows grows rfl rfl rfl
  | routines addresses => exact .of_grows grows rfl rfl rfl
  | disable => exact .of_grows grows rfl rfl rfl

theorem Install.sized {code : LinkedCode} (installed : Install image code before after) :
    before.Sized after := by
  cases installed with
  | slot found unresolved free =>
    have stored : before.Sized { before with
        slots := before.slots.set code.codeId (Slot.publish code _).2 } :=
      .of_grows (.set found (Slot.grows_publish code)) rfl rfl rfl
    exact stored.trans (admitCode_sized image code _)

theorem Settles.sized {records : List Blob.CodeRecord}
    (settles : Settles image records before after) : before.Sized after := by
  induction settles with
  | refl => exact .refl _
  | tail _ step ih =>
    obtain ⟨record, -, stub, -, installed⟩ := step
    exact ih.trans installed.sized

/-! ## Integrity -/

/-- A state that a heap may be seen in. -/
structure Intact (image : Image) (state : State) : Prop where
  orderly : state.Orderly
  seats : Seats image state
  sized : image.initialState.Sized state

namespace Intact

theorem retains (intact : Intact image before) (retains : before.Retains image after)
    (orderly : after.Orderly) (sized : before.Sized after) : Intact image after :=
  ⟨orderly, intact.seats.retains retains, intact.sized.trans sized⟩

theorem unbind (intact : Intact image state) (klass : ClassRef) : Intact image (state.unbind klass) where
  orderly := intact.orderly.of_slots rfl
  seats :=
    { sized := intact.seats.sized
      seated := by
        intro other classId bound
        rw [binding_unbind] at bound
        split at bound
        · cases bound
        · exact intact.seats.seated other classId bound }
  sized := intact.sized.trans ⟨rfl, rfl, rfl, rfl⟩

/-- No change breaks integrity but that of a metaspace slot from which a class that is
unloaded is dropped. -/
theorem change {call : Call} {heard : Engine.signature.Heard} (intact : Intact image before)
    (stays : ∀ klass, call ≠ .unload klass) (change : Change image call heard before after) :
    Intact image after := by
  rcases change.victim intact.seats with retains | ⟨klass, -, rfl⟩ | ⟨klass, same, -⟩
  · exact intact.retains retains (intact.orderly.touches change.touches) change.sized
  · exact intact.unbind klass
  · exact absurd same (stays klass)

theorem install {code : LinkedCode} (intact : Intact image before)
    (installed : Install image code before after) : Intact image after :=
  intact.retains installed.retains (intact.orderly.install installed) installed.sized

theorem taskChange {task : Task} {heard : surroundings.Heard} (intact : Intact image before)
    (stays : ∀ klass, task ≠ .call (.unload klass))
    (change : Task.Change image task heard before after) : Intact image after := by
  cases change with
  | call change =>
    exact intact.change (fun klass same => stays klass (congrArg Task.call same)) change
  | collect relocated =>
    have sized := relocated.sized
    cases relocated
    exact intact.retains (.of_same rfl rfl rfl) (intact.orderly.of_slots rfl) sized

theorem taskAsk {task : Task} {question : Question} (intact : Intact image before)
    (asked : Task.Ask image task question before after) : Intact image after := by
  cases asked with
  | visitor shown => exact shown.same ▸ intact
  | engine asked =>
    cases asked with
    | install known installed => exact intact.install installed
    | deoptimize deoptimized =>
      cases deoptimized with
      | @slot codeId slot found executable method =>
        have touches : before.Touches
            { before with slots := before.slots.set codeId slot.invalidate.2 } :=
          .one found (.invalidate slot) rfl
        exact intact.retains (.of_same rfl rfl rfl) (intact.orderly.touches touches)
          (.of_grows touches.grows rfl rfl rfl)
    | _ => exact intact

end Intact

/-! ## Tasks -/

/-- Nothing has been answered yet. -/
def unheard : Engine.signature.Heard :=
  fun _ _ => False

/-- A live class lost its binding and its metaspace slots, and nothing else happened. -/
structure Leaves (klass : ClassRef) (before after : State) : Prop where
  frame : after = { before with
    bindings := (before.unbind klass).bindings, metaspace := after.metaspace }
  size : after.metaspace.size = before.metaspace.size
  gone : ∀ index, after.metaspace.get index ≠ some klass
  others : ∀ index other, other ≠ klass → before.metaspace.get index = some other →
    after.metaspace.get index = some other
  fewer : ∀ index other, after.metaspace.get index = some other →
    before.metaspace.get index = some other

/-- Unloading first takes the live class out, and goes on with sweeps from there. -/
theorem unload_leaves (image : Image) (klass : ClassRef) (cell : Cell) : ∃ after : Cell,
    unload image klass cell = finishUnload image (entryOf image cell.state klass) after ∧
      Leaves klass cell.state after.state := by
  obtain ⟨visits, after, ran, only⟩ :=
    clearing_done klass { cell with state := cell.state.unbind klass }
  -- The walk only empties slots, and only those of the class.
  let kept (state : State) : Prop := state.metaspace.size = cell.state.metaspace.size ∧
    (∀ index other, other ≠ klass → cell.state.metaspace.get index = some other →
      state.metaspace.get index = some other) ∧
    ∀ index other, state.metaspace.get index = some other →
      cell.state.metaspace.get index = some other
  have drops : ∀ first second : State, kept first → Drop klass first second → kept second := by
    rintro first second ⟨size, others, fewer⟩ ⟨⟩
    refine ⟨(Got.replaceIf_size _ _ _ _).trans size, ?_, ?_⟩
    · exact fun index other apart held => Got.replaceIf_get apart (others index other apart held)
    · exact fun index other held => fewer index other (Got.replaceIf_none_fewer held)
  have attains : Attains (fun _ _ => True) kept _ _ := clearing_attains drops
  have cleared := attains unheard { cell with state := cell.state.unbind klass }
    ⟨rfl, fun _ _ _ held => held, fun _ _ held => held⟩
  rw [ran] at cleared
  obtain ⟨-, gone, size, others, fewer⟩ := cleared
  have frame : after.state = { cell.state with
      bindings := (cell.state.unbind klass).bindings, metaspace := after.state.metaspace } :=
    congrArg Cell.state only
  exact ⟨after, unload_done ran, frame, size, gone, others, fewer⟩

theorem Intact.leave (intact : Intact image before) (leaves : Leaves klass before after) :
    Intact image after where
  orderly := intact.orderly.of_slots (by rw [leaves.frame])
  seats :=
    { sized := by
        rw [leaves.frame]
        exact intact.seats.sized
      seated := by
        intro other classId bound
        have same : after.binding? other = (before.unbind klass).binding? other := by
          rw [leaves.frame]
          rfl
        rw [same, binding_unbind] at bound
        split at bound
        · cases bound
        · rename_i apart
          obtain ⟨entry, index, loader, known, slot, held, taken⟩ :=
            intact.seats.seated other classId bound
          refine ⟨entry, index, loader, known, slot, leaves.others index other apart held, ?_⟩
          rw [leaves.frame]
          exact taken }
  sized := by
    refine intact.sized.trans ⟨?_, leaves.size, ?_, ?_⟩ <;> rw [leaves.frame]

/-- Every task keeps a property wherever it comes to a halt, if the others do. -/
def keeping (image : Image) (kept : State → Prop) : (service image).Customs where
  change _ _ before after := kept before.state → kept after.state
  question _ _ _ before after := kept before.state → kept after.state
  rely before after := kept before.state → kept after.state
  reply _ _ _ _ := True

theorem finishUnload_follows {rely : State → State → Prop} (entry : Option ClassEntry) :
    (finishUnload image entry).Follows (revokeConduct image rely) := by
  cases entry with
  | none => exact Action.follows_pure _
  | some entry =>
    refine Action.Follows.bind (invalidateDependents_follows entry) fun dependents => ?_
    refine Action.Follows.bind (invalidateSelected_follows _ _) fun own => ?_
    exact Action.Follows.bind (follows_note _ _ _) fun _ => Action.follows_pure _

/-- Whose changes a task makes: its own, but unloading, once the class is out, goes on like
a sweep. -/
inductive Acts : Task → Task → Prop where
  | plain {task : Task} (stays : ∀ klass, task ≠ .call (.unload klass)) : Acts task task
  | swept (klass : ClassRef) : Acts (.call (.unload klass)) (.call (.sweep ""))

theorem Acts.stays {task own : Task} (acts : Acts task own) :
    ∀ klass, own ≠ .call (.unload klass) := by
  cases acts with
  | plain stays => exact stays
  | swept => exact nofun

/-- A task keeps to customs that allow it what the tasks do that it acts like, and that
allow to take a live class out. -/
theorem follows_by_acts {customs : (service image).Customs} {task : Task}
    (changed : ∀ own heard before after, Acts task own →
      (taskConduct image own fun _ _ => True).change heard before after →
        customs.change task heard before after)
    (asked : ∀ own heard request before after, Acts task own →
      Task.Ask image own request before.state after.state →
        customs.question task heard request before after)
    (left : ∀ klass, task = .call (.unload klass) → ∀ heard before after,
      Leaves klass before.state after.state → customs.change task heard before after) :
    (task.perform image).Follows (customs.conduct task) := by
  intro heard cell
  by_cases unloads : ∃ klass, task = .call (.unload klass)
  · obtain ⟨klass, rfl⟩ := unloads
    obtain ⟨after, ran, leaves⟩ := unload_leaves image klass cell
    have swept : (finishUnload image (entryOf image cell.state klass)).Follows
        (callConduct image (.sweep "") fun _ _ => True) :=
      revoked_within_call (finishUnload_follows _)
    have ended : (Task.call (.unload klass)).perform image cell =
        Operation.lift (finishUnload image (entryOf image cell.state klass)) after := by
      show Operation.lift (unload image klass) cell = _
      simp only [Operation.lift, Action.answeredBy, ran]
    have lifted : (Operation.lift (finishUnload image (entryOf image cell.state klass)) after).Obeys
        (customs.conduct (.call (.unload klass))) (fun _ _ _ => True) heard after :=
      (obeys_lift (swept _ after)).loosen
        (fun heard before after change => changed _ heard before after (.swept klass) change)
        (fun heard request before after leads =>
          asked _ heard request before after (.swept klass) leads) fun _ _ _ => trivial
    rw [ended]
    exact lifted.after (.single (left klass rfl heard cell after leaves))
  · have stays : ∀ klass, task ≠ .call (.unload klass) := fun klass same => unloads ⟨klass, same⟩
    exact (task_follows task heard cell).loosen
      (fun heard before after change => changed _ heard before after (.plain stays) change)
      (fun heard request before after leads =>
        asked _ heard request before after (.plain stays) leads) fun _ _ _ => trivial

theorem task_intact (task : Task) :
    (task.perform image).Follows ((keeping image (Intact image)).conduct task) := by
  refine follows_by_acts ?_ ?_ ?_
  · rintro own heard before after acts (same | change) intact
    · rwa [same]
    · exact intact.taskChange acts.stays change
  · exact fun own heard request before after acts asked intact => intact.taskAsk asked
  · exact fun klass _ heard before after leaves intact => intact.leave leaves

/-! ## Courses -/

/-- Whoever waits puts up with whatever is kept. -/
theorem keeping_borne {allowed : Task → Prop} : (keeping image kept).Borne allowed where
  steady _ held := held
  lasting early late held := late (early held)
  changed _ change := change
  asked _ asked := asked
  drifted {before after} drifted held := by
    have same : after.state = before.state := drifted
    rwa [same]

theorem keeping_kept (performed : ∀ task : Task,
    (task.perform image).Follows ((keeping image kept).conduct task)) :
    (keeping image kept).Kept fun _ => True where
  toBorne := keeping_borne
  performed task _ := performed task

theorem keeping_preserves : (keeping image kept).Preserves (fun _ => True) fun _ cell => kept cell.state where
  changed _ held change := change held
  asked _ held asked := asked held
  called _ held := held
  answered _ held := held
  replied _ held _ := held
  drifted {_ before after} held drifted := by
    have same : after.state = before.state := drifted
    rwa [same]

theorem created_intact {library : Library} {journal : Journal}
    (created : ((Heap.create library).run journal).1 = .ok heap) : Intact heap.image heap.state := by
  have custody := created_kept created
  obtain ⟨stubs, -, settled⟩ := create_ok.mp created
  obtain ⟨settles, pristine⟩ := settleAll_settles (fun _ member => member) initial_pristine settled
  exact ⟨custody.orderly, custody.seats, settles.sized⟩

/-- A heap is intact in every course, however calls are nested. -/
theorem Reaches.intact {admits : (service heap.image).Course → Task → Prop} {library : Library}
    {journal : Journal} (created : ((Heap.create library).run journal).1 = .ok heap)
    (reached : Reaches heap admits course) : Intact heap.image course.state.state := by
  obtain ⟨counters, journal, reached⟩ := reached
  exact Service.Reaches.holding (keeping_kept task_intact) keeping_preserves.sustains
    (fun _ _ _ => trivial) (created_intact created) reached

end Precompiled.Heap
