/-! Handles to entities of the running engine. A handle is opaque and never
null, and its type says what it leads to, so that a class can never be taken
for an object. -/
namespace Precompiled

/-- What a handle leads to. -/
inductive Entity where
  | liveClass
  | method
  | metadata
  | object
  deriving DecidableEq, Repr

/-- A non-null handle to an entity of one kind. -/
structure Handle (entity : Entity) where
  raw : UInt64
  nonnull : raw ≠ 0
  deriving DecidableEq, Repr

/-- The handle with a raw value; zero is no handle. -/
def Handle.ofRaw? {entity : Entity} (raw : UInt64) : Option (Handle entity) :=
  if nonnull : raw ≠ 0 then some ⟨raw, nonnull⟩ else none

abbrev ClassRef := Handle .liveClass

abbrev MethodRef := Handle .method

abbrev MetadataRef := Handle .metadata

abbrev ObjectRef := Handle .object

/-- Identity of a class loader; zero is the boot loader. -/
abbrev LoaderId := UInt32

end Precompiled
