import Precompiled.Heap.Call
import Precompiled.Heap.Walk
import Precompiled.Proofs.Dialogue.Course

/-! A heap as a service. Its tasks are the calls, whose partner is the engine,
and the walks, whose partner is a visitor; either may begin further tasks on the
same heap before it answers. The counters and the journal are shared with other
heaps, so they may change at any time. -/
namespace Precompiled.Heap

/-- What a task asks of its surroundings. -/
inductive Question where
  | engine (request : Engine.Request)
  /-- Where the collector wants an object to be, if anywhere. -/
  | relocate (object : ObjectRef)
  /-- A visitor is shown an executable method. -/
  | method (code : LinkedCode)
  | metadata (value : MetadataRef)
  | entry (entry : MetaspaceEntry)

def Question.Answer : Question → Type
  | .engine request => request.Answer
  | .relocate _ => Option ObjectRef
  | .method _ | .metadata _ | .entry _ => Unit

/-- The answers of an engine that finds nothing, and of visitors that do nothing. -/
def blank : (question : Question) → question.Answer
  | .engine (.findClass _ _) => none
  | .engine (.findMethod _ _) => none
  | .engine (.resolveMetadata _ _) => none
  | .engine (.resolveObject _) => none
  | .engine (.findRoutine _) => none
  | .engine (.install _) => ()
  | .engine (.deoptimize _) => ()
  | .relocate _ => none
  | .method _ => ()
  | .metadata _ => ()
  | .entry _ => ()

/-- The engine and the visitors as one partner in dialogue. -/
def surroundings : Signature where
  Request := Question
  Answer := Question.Answer

inductive Task where
  | call (call : Call)
  /-- The collector moves or drops objects. -/
  | collect
  | methods
  | metadata
  | entries
  deriving DecidableEq

def Task.Reply : Task → Type
  | .call operation => operation.Reply
  | .collect => List ObjectRef
  | .methods | .metadata | .entries => Unit

/-- An operation whose engine is part of larger surroundings. -/
def Operation.lift {α : Type} (operation : Operation α) : Action surroundings Cell α :=
  operation.answeredBy fun request => Action.ask (S := surroundings) (.engine request)

/-- What a task does. -/
def Task.perform (image : Image) : (task : Task) → Action surroundings Cell task.Reply
  | .call operation => (Heap.perform image operation).lift
  | .collect => updateObjects fun object => Action.ask (S := surroundings) (.relocate object)
  | .methods => visitMethods fun code => Action.ask (S := surroundings) (.method code)
  | .metadata => visitMetadata fun value => Action.ask (S := surroundings) (.metadata value)
  | .entries => visitEntries fun entry => Action.ask (S := surroundings) (.entry entry)

/-- The tasks of the heap with a given fixed half. -/
def service (image : Image) : Service surroundings Cell where
  Call := Task
  Reply := Task.Reply
  perform := Task.perform image
  drift before after := after.state = before.state

/-- The courses of a heap from its creation on, in which tasks are begun as
`admits` allows. -/
def Reaches (heap : Heap)
    (admits : (service heap.image).Course → Task → Prop) (course : (service heap.image).Course) :
    Prop :=
  ∃ counters journal,
    Service.Reaches admits { state := heap.state, counters, journal } course

end Precompiled.Heap
