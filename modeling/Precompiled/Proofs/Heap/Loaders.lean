import Precompiled.Proofs.Heap.Custody

/-! The loaders of classes. A class of the blob is bound to the loader that came
first, and stays so even when its live class is redefined or unloaded. -/
namespace Precompiled.Heap

variable {heap : Heap} {image : Image} {before after : State}
  {course : (service heap.image).Course}

/-- Classes keep the loaders that they have. -/
def State.KeepsLoaders (before after : State) : Prop :=
  ∀ classId loader, before.loader? classId = some loader → after.loader? classId = some loader

theorem State.KeepsLoaders.of_same (same : after.loaders = before.loaders) :
    before.KeepsLoaders after := by
  intro classId loader bound
  rwa [State.loader?, same]

/-- No change takes a loader away, not even that of a class that is unloaded. -/
theorem Change.keepsLoaders {call : Call} {heard : Engine.signature.Heard}
    (change : Change image call heard before after) : before.KeepsLoaders after := by
  cases change with
  | link linked => exact linked.retains.loaders
  | revoke revoked => cases revoked <;> exact .of_same rfl
  | @refuse entry view fits taken =>
    have retains : before.Retains image (claimPlace entry view before).2 := claimPlace_retains _ _ _
    exact retains.loaders
  | @bind entry view fits unbound claimed =>
    have retains : before.Retains image (claimPlace entry view before).2 := claimPlace_retains _ _ _
    exact retains.loaders
  | unbind gone => exact .of_same rfl
  | drop gone dropped =>
    cases dropped
    exact .of_same rfl
  | relocate collected relocated =>
    cases relocated
    exact .of_same rfl
  | routines addresses => exact .of_same rfl
  | disable => exact .of_same rfl
  | @count code given => exact .of_same (admitCode_frame image code before).1

theorem Task.Change.keepsLoaders {task : Task} {heard : surroundings.Heard}
    (change : Task.Change image task heard before after) : before.KeepsLoaders after := by
  cases change with
  | call change => exact Heap.Change.keepsLoaders change
  | collect relocated =>
    cases relocated
    exact .of_same rfl

theorem Task.Ask.keepsLoaders {task : Task} {question : Question}
    (asked : Task.Ask image task question before after) : before.KeepsLoaders after := by
  cases asked with
  | visitor shown => cases shown <;> exact .of_same rfl
  | engine asked =>
    cases asked with
    | install known installed => exact .of_same installed.frame.1
    | deoptimize deoptimized =>
      cases deoptimized
      exact .of_same rfl
    | _ => exact .of_same rfl

/-- The customs of a heap, where everybody may rely on the loaders. -/
theorem loaders_kept (allowed : Task → Prop) : (customs image State.KeepsLoaders).Kept allowed where
  performed task _ := by
    have follows : (task.perform image).Follows (taskConduct image task State.KeepsLoaders) :=
      task_follows task
    exact follows
  steady cell _ _ bound := bound
  lasting early late classId loader bound := late classId loader (early classId loader bound)
  changed _ change := by
    rcases change with same | change
    · exact .of_same (by rw [same])
    · exact change.keepsLoaders
  asked _ asked := asked.keepsLoaders
  drifted drifted := .of_same (by rw [drifted])

/-- The states of a heap that were and are keep the loaders of earlier ones. -/
def LoadersLast (heap : Heap) (past : Past heap.image) (state : State) : Prop :=
  (state :: earlier heap past).Pairwise fun late old => old.KeepsLoaders late

section Loaders

variable {past : Past heap.image} {event : (service heap.image).Event} {cell : Cell}

theorem LoadersLast.onward (last : LoadersLast heap past before) (keeps : before.KeepsLoaders after) :
    LoadersLast heap past after := by
  obtain ⟨since, formerly⟩ := List.pairwise_cons.mp last
  refine List.pairwise_cons.mpr ⟨fun old among classId loader bound => ?_, formerly⟩
  exact keeps classId loader (since old among classId loader bound)

theorem LoadersLast.note (last : LoadersLast heap past cell.state) :
    LoadersLast heap (⟨event, cell⟩ :: past) cell.state := by
  refine List.pairwise_cons.mpr ⟨?_, last⟩
  intro old among
  rcases List.mem_cons.mp among with rfl | before
  · exact fun _ _ bound => bound
  · exact (List.pairwise_cons.mp last).1 old before

theorem loaders_preserved : (customs heap.image State.KeepsLoaders).Preserves (fun _ => True)
    fun past cell => LoadersLast heap past cell.state where
  changed _ last change := by
    rcases change with same | change
    · exact same ▸ last
    · exact last.onward change.keepsLoaders
  asked _ last asked := (last.onward asked.keepsLoaders).note
  called _ last := last.note
  answered _ last := last.note
  replied _ last _ := last.note
  drifted last drifted := drifted ▸ last

end Loaders

/-- A loader, once set, never changes, in whatever order tasks are begun and
questions answered. -/
theorem Reaches.loaders_last {admits : (service heap.image).Course → Task → Prop}
    (reached : Reaches heap admits course) : LoadersLast heap course.past course.state.state := by
  obtain ⟨counters, journal, reached⟩ := reached
  exact Service.Reaches.holding (loaders_kept fun _ => True) loaders_preserved.sustains (fun _ _ _ => trivial)
    (by simp [LoadersLast, earlier, State.KeepsLoaders]) reached

end Precompiled.Heap
