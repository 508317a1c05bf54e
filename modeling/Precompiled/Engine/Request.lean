import Precompiled.Dialogue
import Precompiled.Engine.ClassView
import Precompiled.LinkedCode

/-! What a heap asks of the engine it runs in. Look-ups have no answer when the
entity does not exist; notices are answered when the engine has dealt with
them. Any of them may lead back into a heap before it is answered. -/
namespace Precompiled.Engine

inductive Request where
  /-- The class of a name as seen from a loader. -/
  | findClass (name : String) (loader : LoaderId)
  /-- The method that a live class declares. -/
  | findMethod (holder : ClassRef) (name : MethodName)
  /-- The metadata of a descriptor in the context of a class. -/
  | resolveMetadata (descriptor : String) (holder : ClassView)
  /-- The heap object of a descriptor. -/
  | resolveObject (descriptor : String)
  /-- The address of a routine that compiled code calls. -/
  | findRoutine (name : String)
  /-- Code became executable. -/
  | install (code : LinkedCode)
  /-- Executable code was invalidated, and frames that run it must leave it. -/
  | deoptimize (code : LinkedCode)
  deriving DecidableEq, Repr

/-- The kind of answer to each request. -/
def Request.Answer : Request → Type
  | .findClass _ _ => Option ClassRef
  | .findMethod _ _ => Option LiveMethod
  | .resolveMetadata _ _ => Option MetadataRef
  | .resolveObject _ => Option ObjectRef
  | .findRoutine _ => Option Nat
  | .install _ => Unit
  | .deoptimize _ => Unit

/-- The engine as a partner in dialogue. -/
def signature : Signature where
  Request := Request
  Answer := Request.Answer

end Precompiled.Engine
