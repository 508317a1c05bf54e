/-! The symbolic name of a compiled method. Stubs of the engine have no holder
and are shown without one. -/
namespace Precompiled

structure MethodName where
  /-- Binary name of the class that holds the method; empty for stubs. -/
  holder : String
  name : String
  signature : String
  deriving DecidableEq, Repr, Inhabited

namespace MethodName

/-- Name and signature, which identify a method within its class. -/
def selector (method : MethodName) : String :=
  method.name ++ method.signature

def display (method : MethodName) : String :=
  if method.holder.isEmpty then method.selector else method.holder ++ "." ++ method.selector

end MethodName

end Precompiled
