import Precompiled.Heap.Linkage

/-! The operations on a heap as data, so that a run can be described by the
calls it makes and a call can be kept for later. -/
namespace Precompiled.Heap

inductive Call where
  /-- Links a live class and publishes its methods. -/
  | loadClass (view : ClassView)
  /-- Matches a live class without publishing anything. -/
  | resolveClass (view : ClassView)
  | findClass (name : String)
  | classFromSlot (name : String) (view : ClassView)
  | resolveMetaspace (index : Nat) (loader : LoaderId)
  | resolveMetadata (codeId localIndex : Nat) (holder : ClassView)
  | resolveObject (index : Nat)
  /-- Lets the collector move or drop objects. An object that is not listed
  stays where it is. -/
  | updateObjects (moves : List (ObjectRef × Option ObjectRef))
  | publish (code : LinkedCode)
  | admitCode (code : LinkedCode)
  /-- Sweeps the dependents of the class of a name. -/
  | sweep (name : String)
  /-- Sweeps the dependents of a class of the blob. -/
  | sweepEntry (entry : ClassEntry)
  /-- A live class is being redefined. -/
  | flush (klass : ClassRef)
  /-- A live class was unloaded. -/
  | unload (klass : ClassRef)
  deriving DecidableEq, Repr

namespace Call

/-- The kind of reply to each call. -/
def Reply : Call → Type
  | .loadClass _ => Except Miss Nat
  | .resolveClass _ => Except Miss ClassEntry
  | .findClass _ => Option ClassEntry
  | .classFromSlot _ _ => Option ClassRef
  | .resolveMetaspace _ _ => Except Error ClassRef
  | .resolveMetadata _ _ _ => Except Error MetadataRef
  | .resolveObject _ => Except Error ObjectRef
  | .updateObjects _ => List ObjectRef
  | .publish _ => Slot.Publication
  | .admitCode _ => Bool
  | .sweep _ | .sweepEntry _ | .flush _ | .unload _ => SweepReport

end Call

/-- Sweeps the dependents of the class of a name, bound or not. An unknown name
has none. -/
def sweep (image : Image) (name : String) : Operation SweepReport := do
  match ← findClass image name with
  | some entry => invalidateDependents image entry
  | none => return {}

/-- The operation that a call stands for. -/
def perform (image : Image) : (call : Call) → Operation call.Reply
  | .loadClass view => loadClass image view
  | .resolveClass view => resolveClass image view
  | .findClass name => findClass image name
  | .classFromSlot name view => classFromSlot image name view
  | .resolveMetaspace index loader => resolveMetaspace image index loader
  | .resolveMetadata codeId localIndex holder => resolveMetadata image codeId localIndex holder
  | .resolveObject index => resolveObject image index
  | .updateObjects moves => updateObjects fun object => pure (Got.moved moves object)
  | .publish code => publish image code
  | .admitCode code => admitCode image code
  | .sweep name => sweep image name
  | .sweepEntry entry => invalidateDependents image entry
  | .flush klass => flush image klass
  | .unload klass => unload image klass

end Precompiled.Heap
