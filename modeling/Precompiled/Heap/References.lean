import Precompiled.Heap.Registry

/-! Resolving the slots that compiled code reads. A slot is resolved at most
once and by its own descriptor; while it holds a value the engine is not asked
again. -/
namespace Precompiled.Heap

variable (image : Image)

/-- A reference nobody could resolve, reported on behalf of the library. -/
def unresolved (reference : Reference) : Error :=
  .unresolved image.library.name reference

/-- The value of a slot, or the failure to resolve what it refers to. -/
def orUnresolved (value : Option α) (reference : Reference) : Except Error α :=
  match value with
  | some value => .ok value
  | none => .error (unresolved image reference)

/-- Resolves a metaspace slot to the class it names, as `loader` sees it. -/
def resolveMetaspace (index : Nat) (loader : LoaderId) : Operation (Except Error ClassRef) := do
  match image.library.metaspaceName index with
  | .error error => return .error error
  | .ok name =>
    let value ← Got.getOrResolve Cell.metaspace index (Operation.ask (.findClass name loader))
    return orUnresolved image value (.liveClass name)

/-- The descriptor and the table index of a metadata slot of a piece of code,
counted within the code. -/
def metadataSlot (codeId localIndex : Nat) : Except Error (String × Nat) := do
  let some owned := image.record? codeId
    | throw (unresolved image (.code codeId))
  let detail ← image.library.detailOf owned.record
  let some nameOffset := detail.metadataNames[localIndex]?
    | throw (unresolved image (.metadataSlot localIndex codeId))
  let descriptor ← image.library.poolName nameOffset
  match natural? owned.record.metadataStart with
  | some start => return (descriptor, start + localIndex)
  | none => throw (unresolved image (.metadata descriptor))

/-- Resolves a metadata slot of a piece of code in the context of a class. -/
def resolveMetadata (codeId localIndex : Nat) (holder : ClassView) :
    Operation (Except Error MetadataRef) := do
  match metadataSlot image codeId localIndex with
  | .error error => return .error error
  | .ok (descriptor, index) =>
    let value ← Got.getOrResolve Cell.metadata index
      (Operation.ask (.resolveMetadata descriptor holder))
    return orUnresolved image value (.metadata descriptor)

/-- Resolves a heap-object slot. -/
def resolveObject (index : Nat) : Operation (Except Error ObjectRef) := do
  match image.library.objectName index with
  | .error error => return .error error
  | .ok descriptor =>
    let value ← Got.getOrResolve Cell.objects index (Operation.ask (.resolveObject descriptor))
    return orUnresolved image value (.object descriptor)

/-- Lets the collector update or clear every resolved heap-object slot. The
result lists the objects it was shown. -/
def updateObjects {S : Signature} (visit : ObjectRef → Action S Cell (Option ObjectRef)) :
    Action S Cell (List ObjectRef) := do
  let visits ← Got.updateEach Cell.objects fun _ object => visit object
  return visits.map Prod.snd

end Precompiled.Heap
