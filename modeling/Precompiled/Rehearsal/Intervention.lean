import Precompiled.Heap.Call

/-! Interventions: calls back into a heap while a request to the engine is
open. -/
namespace Precompiled.Rehearsal

/-- The kind of a request. -/
inductive Occasion where
  | findClass
  | findMethod
  | resolveMetadata
  | resolveObject
  | findRoutine
  | install
  | deoptimize
  deriving DecidableEq, Repr

namespace Occasion

/-- The word for a kind of request. -/
def label : Occasion → String
  | .findClass => "find_class"
  | .findMethod => "find_method"
  | .resolveMetadata => "resolve_metadata"
  | .resolveObject => "resolve_object"
  | .findRoutine => "runtime_routine"
  | .install => "install"
  | .deoptimize => "deopt"

/-- All kinds of requests. -/
def all : List Occasion :=
  [.findClass, .findMethod, .resolveMetadata, .resolveObject, .findRoutine, .install, .deoptimize]

/-- The kind of request that a word stands for. -/
def ofLabel? (word : String) : Option Occasion :=
  all.find? fun occasion => occasion.label == word

def of : Engine.Request → Occasion
  | .findClass _ _ => .findClass
  | .findMethod _ _ => .findMethod
  | .resolveMetadata _ _ => .resolveMetadata
  | .resolveObject _ => .resolveObject
  | .findRoutine _ => .findRoutine
  | .install _ => .install
  | .deoptimize _ => .deoptimize

end Occasion

/-- What a request is about, as a text. Notices are about nothing in
particular. -/
def subjectOf : Engine.Request → String
  | .findClass name _ => name
  | .findMethod holder _ => toString holder.raw.toNat
  | .resolveMetadata descriptor _ => descriptor
  | .resolveObject descriptor => descriptor
  | .findRoutine name => name
  | .install _ => ""
  | .deoptimize _ => ""

/-- Where a heap of the rehearsal lives. -/
inductive Place where
  /-- A heap of the session, by its position. -/
  | member (position : Nat)
  /-- A heap outside the session. -/
  | separate (index : Nat)
  deriving DecidableEq, Repr

/-- A call to be made once, during the first request that fits. -/
structure Intervention where
  occasion : Occasion
  /-- What the request has to be about; empty if that does not matter. -/
  subject : String
  place : Place
  call : Heap.Call
  deriving DecidableEq, Repr

/-- Whether an intervention fits a request. -/
def Intervention.fits (intervention : Intervention) (request : Engine.Request) : Bool :=
  intervention.occasion == .of request &&
    (intervention.subject.isEmpty || intervention.subject == subjectOf request)

/-- Something that happened between a heap and the engine. -/
inductive Event where
  /-- The engine was asked. -/
  | asked (request : Engine.Request)
  /-- An intervention was made and came to its end. -/
  | intervened (call : Heap.Call) (reply : call.Reply)

end Precompiled.Rehearsal
