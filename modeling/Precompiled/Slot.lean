import Precompiled.LinkedCode

/-! The slot of one code id. A slot starts unresolved; publishing resolves it,
and invalidating it is final. The handle is written at most once and survives
invalidation, so that frames still running the code can be found. -/
namespace Precompiled

namespace Slot

inductive Phase where
  /-- Not linked yet. -/
  | unresolved
  /-- Linked and executable. -/
  | resolved
  /-- Never to be used again. -/
  | invalidated
  deriving DecidableEq, Repr, Inhabited

/-- What came of publishing. -/
inductive Publication where
  /-- The given code is now the slot's code. -/
  | published (code : LinkedCode)
  /-- Other code had been published before. -/
  | alreadyPublished (code : LinkedCode)
  /-- The slot was invalidated. -/
  | invalidated
  /-- A handle is present in a slot that is still unresolved: somebody else is
  between the two steps of publishing and has to be waited for. -/
  | waiting
  deriving DecidableEq, Repr

/-- What came of invalidating. -/
inductive Invalidation where
  /-- This call moved the slot to invalidated. -/
  | invalidated (wasResolved : Bool)
  | alreadyInvalidated
  /-- Stubs are never invalidated. -/
  | stub
  deriving DecidableEq, Repr

end Slot

structure Slot where
  phase : Slot.Phase := .unresolved
  /-- The code, once any has been published. -/
  handle : Option LinkedCode := none
  /-- Whether the code counts towards the heap's bounds. -/
  admitted : Bool := false
  deriving DecidableEq, Repr, Inhabited

namespace Slot

/-- The code of a resolved slot. -/
def executable (slot : Slot) : Option LinkedCode :=
  if slot.phase = .resolved then slot.handle else none

/-- Makes `code` the slot's code unless other code came first or the slot was
invalidated. Once the handle is stored the phase moves on only from
unresolved. -/
def publish (code : LinkedCode) (slot : Slot) : Publication × Slot :=
  match slot.phase, slot.handle with
  | .invalidated, _ => (.invalidated, slot)
  | .resolved, some winner => (.alreadyPublished winner, slot)
  | .resolved, none => (.invalidated, { slot with handle := some code })
  | .unresolved, some _ => (.waiting, slot)
  | .unresolved, none => (.published code, { slot with phase := .resolved, handle := some code })

/-- Puts a stub into a slot that holds no code; it is resolved from the start.
The result says whether it was put there. -/
def publishStub (stub : LinkedCode) (slot : Slot) : Bool × Slot :=
  match slot.handle with
  | some _ => (false, slot)
  | none => (true, { slot with phase := .resolved, handle := some stub })

/-- Moves the slot to invalidated, unless it holds a stub. -/
def invalidate (slot : Slot) : Invalidation × Slot :=
  if slot.handle.any LinkedCode.isStub then (.stub, slot)
  else
    match slot.phase with
    | .invalidated => (.alreadyInvalidated, slot)
    | .resolved => (.invalidated true, { slot with phase := .invalidated })
    | .unresolved => (.invalidated false, { slot with phase := .invalidated })

/-- Invalidates the slot only if nothing was published. The result says whether
it did. -/
def retire (slot : Slot) : Bool × Slot :=
  if slot.phase = .unresolved then (true, { slot with phase := .invalidated }) else (false, slot)

/-- Counts the code towards the bounds. The result is true the first time. -/
def markAdmitted (slot : Slot) : Bool × Slot :=
  (!slot.admitted, { slot with admitted := true })

end Slot

end Precompiled
