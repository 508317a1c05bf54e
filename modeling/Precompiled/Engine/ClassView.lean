import Precompiled.Handle
import Precompiled.Shape

/-! A class as the running engine shows it at the moment. -/
namespace Precompiled

structure ClassView where
  klass : ClassRef
  name : String
  /-- The loader that defined the class. -/
  loader : LoaderId
  /-- Fingerprint of the class's present shape. -/
  fingerprint : UInt64
  /-- The class has been redefined since it was loaded. -/
  redefined : Bool := false
  assertionsEnabled : Bool := false
  deriving DecidableEq, Repr

/-- A freshly loaded class of the given shape. -/
def ClassView.ofShape (klass : ClassRef) (loader : LoaderId) (shape : Shape) : ClassView where
  klass
  name := shape.name
  loader
  fingerprint := shape.fingerprint

/-- A method that a live class declares. -/
structure LiveMethod where
  method : MethodRef
  /-- The engine already has compiled code for the method. -/
  hasCode : Bool := false
  /-- The method is excluded from compilation. -/
  excluded : Bool := false
  deriving DecidableEq, Repr

end Precompiled
