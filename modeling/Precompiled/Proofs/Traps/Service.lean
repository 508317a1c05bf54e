import Precompiled.Proofs.Heap.Task
import Precompiled.Proofs.Traps.Addresses
import Precompiled.Proofs.Traps.Courses
import Precompiled.Proofs.Traps.Creation
import Precompiled.Proofs.Traps.Linkage

/-! The whole of a heap over bytes that nobody vouches for. Whatever they are, loading them,
looking at what was loaded, creating a heap and every course of tasks on it have no
expression without a value. What the callers have to keep to is little: code that they hand
in was handed out by the heap before, and an index is a word of 32 bits. -/
namespace Precompiled.Heap

open Blob Trapping

/-! ## Calls -/

/-- What callers keep to: a handle is the heap's own, and an index fits half a word. -/
def Call.Proper (state : State) : Call → Prop
  | .publish code | .admitCode code => ∃ codeId, state.Holds codeId code
  | .resolveMetaspace index _ | .resolveObject index => index < 2 ^ 32
  | _ => True

/-- A proper task is a proper call, or one of those that the heap makes up itself. -/
def Task.Proper (state : State) : Task → Prop
  | .call operation => operation.Proper state
  | _ => True

namespace Fixture

section Definitions

variable (fixture : Fixture)

/-- Sweeps the dependents of the class of a name. -/
def sweep (name : String) : Guarded Engine.signature Cell SweepReport := do
  match ← fixture.findClass name with
  | some entry => fixture.invalidateDependents entry
  | none => return {}

/-- The operation that a call stands for. -/
def perform : (call : Call) → Guarded Engine.signature Cell call.Reply
  | .loadClass view => fixture.loadClass view
  | .resolveClass view => fixture.resolveClass view
  | .findClass name => fixture.findClass name
  | .classFromSlot name view => fixture.classFromSlot name view
  | .resolveMetaspace index loader => fixture.resolveMetaspace index loader
  | .resolveMetadata codeId localIndex holder => fixture.resolveMetadata codeId localIndex holder
  | .resolveObject index => fixture.resolveObject index
  | .updateObjects moves =>
    liftM (updateObjects (fun object => pure (Got.moved moves object)) :
      Operation (List ObjectRef))
  | .publish code => fixture.publish code
  | .admitCode code => fixture.admitLinked code
  | .sweep name => fixture.sweep name
  | .sweepEntry entry => fixture.invalidateDependents entry
  | .flush klass => fixture.flush klass
  | .unload klass => fixture.unload klass

/-- What a task does. The walks and the collector's visit have no partial expressions. -/
def task : (task : Task) → Guarded surroundings Cell task.Reply
  | .call operation => ExceptT.mk (Operation.lift (fixture.perform operation).run)
  | .collect => liftM (Task.perform fixture.image .collect)
  | .methods => liftM (Task.perform fixture.image .methods)
  | .metadata => liftM (Task.perform fixture.image .metadata)
  | .entries => liftM (Task.perform fixture.image .entries)

/-- The tasks of the heap, with their partial expressions. -/
def service : Service surroundings Cell :=
  (Heap.service fixture.image).guarded fixture.task

end Definitions

/-! ## Walks -/

section Walks

variable {image : Image} {S : Signature} {ι α : Type}

theorem visitEach_keeps {view : State → ι → Option α} {visit : α → Action S Cell Unit}
    (visits : ∀ value, (visit value).Keeps (Whole image)) (stops : List ι) :
    (visitEach view visit stops).Keeps (Whole image) := by
  induction stops with
  | nil => exact Action.keeps_pure _
  | cons stop rest ih =>
    refine (Action.keeps_read _).bind fun found => ?_
    cases found with
    | none => exact ih
    | some value => exact (visits value).bind fun _ => ih

theorem visitMethods_keeps {visit : LinkedCode → Action S Cell Unit}
    (visits : ∀ code, (visit code).Keeps (Whole image)) :
    (visitMethods visit).Keeps (Whole image) :=
  (Action.keeps_read _).bind fun _ => visitEach_keeps visits _

theorem visitMetadata_keeps {visit : MetadataRef → Action S Cell Unit}
    (visits : ∀ value, (visit value).Keeps (Whole image)) :
    (visitMetadata visit).Keeps (Whole image) :=
  visitMethods_keeps fun _ => visitEach_keeps visits _

theorem visitEntries_keeps {visit : MetaspaceEntry → Action S Cell Unit}
    (visits : ∀ entry, (visit entry).Keeps (Whole image)) :
    (visitEntries visit).Keeps (Whole image) := by
  refine (Action.keeps_read _).bind fun classes => ?_
  refine (visitEach_keeps (fun klass => visits (.klass klass)) _).bind fun _ => ?_
  refine (Action.keeps_read _).bind fun metadata => ?_
  exact visitEach_keeps (fun value => visits (.metadata value)) _

theorem updateObjects_keeps {visit : ObjectRef → Action S Cell (Option ObjectRef)}
    (visits : ∀ object, (visit object).Keeps (Whole image)) :
    (updateObjects visit).Keeps (Whole image) :=
  Action.Keeps.bind (Action.keeps_updateEach whole_objects fun _ object => visits object)
    fun _ => Action.keeps_pure _

/-- A question leaves the heap as it is. -/
theorem question_keeps (question : Question) :
    (Action.ask (S := surroundings) question : Action surroundings Cell _).Keeps (Whole image) :=
  fun _ intact => ⟨intact, fun _ _ holds => holds⟩

end Walks

/-! ## No trap in a task -/

variable {fixture : Fixture} (sound : fixture.Sound)
include sound

theorem perform_mirrors {state : State} (intact : state.Intact fixture.image) {call : Call}
    (proper : call.Proper state) :
    Guarded.Mirrors (Whole fixture.image) (· = ·) (fixture.perform call)
      (Heap.perform fixture.image call) := by
  have contained : ∀ {codeId code}, state.Holds codeId code → fixture.image.Contains code :=
    fun ⟨slot, found, held⟩ => intact.handle found held
  have equal : ∀ entry, Guarded.Mirrors (Whole fixture.image) (· = ·)
      (fixture.invalidateDependents entry) (Heap.invalidateDependents fixture.image entry) :=
    fun entry => (invalidateDependents_mirrors sound entry).weaken fun _ _ same => same.1
  cases call with
  | loadClass view => exact loadClass_mirrors sound view
  | resolveClass view => exact resolveClass_mirrors sound view
  | findClass name => exact (findClass_mirrors sound name).weaken fun _ _ same => same.1
  | classFromSlot name view => exact classFromSlot_mirrors sound name view
  | resolveMetaspace index loader => exact resolveMetaspace_mirrors sound proper loader
  | resolveMetadata codeId localIndex holder =>
    exact resolveMetadata_mirrors sound codeId localIndex holder
  | resolveObject index => exact resolveObject_mirrors sound proper
  | updateObjects moves =>
    exact (updateObjects_keeps fun _ => Action.keeps_pure _).lift
  | publish code =>
    obtain ⟨codeId, holds⟩ := proper
    exact sound.publish_mirrors (contained holds)
  | admitCode code =>
    obtain ⟨codeId, holds⟩ := proper
    exact sound.admit_mirrors (contained holds)
  | sweep name =>
    refine (findClass_mirrors sound name).bind ?_
    rintro entry _ ⟨rfl, -⟩
    cases entry with
    | none => exact Guarded.mirrors_pure rfl
    | some entry => exact equal entry
  | sweepEntry entry => exact equal entry
  | flush klass => exact flush_mirrors sound klass
  | unload klass => exact unload_mirrors sound klass

/-- A proper task does not trap, whatever is answered and whatever else is going on. -/
theorem task_mirrors {cell : Cell} (intact : Whole fixture.image cell) {task : Task}
    (proper : task.Proper cell.state) :
    (fixture.task task cell).Mirrors (Whole fixture.image) (· = ·)
      (Task.perform fixture.image task cell) := by
  cases task with
  | call operation =>
    have mirrors : (fixture.perform operation).Mirrors (Whole fixture.image) (· = ·)
        (Heap.perform fixture.image operation) :=
      perform_mirrors sound intact proper
    exact @Dialogue.Mirrors.answeredBy _ surroundings _ _ _ _ _ _ _ .engine (fun _ told => told)
      (mirrors cell intact)
  | collect => exact (updateObjects_keeps fun object =>
    question_keeps (.relocate object)).lift cell intact
  | methods => exact (visitMethods_keeps fun code => question_keeps (.method code)).lift cell intact
  | metadata => exact (visitMetadata_keeps fun value => question_keeps (.metadata value)).lift cell intact
  | entries => exact (visitEntries_keeps fun entry => question_keeps (.entry entry)).lift cell intact

end Fixture

end Precompiled.Heap
