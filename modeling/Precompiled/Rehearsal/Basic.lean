import Precompiled.Rehearsal.Intervention
import Precompiled.Rehearsal.Script
import Precompiled.Session

/-! A rehearsal runs a session, and heaps outside of it, against an engine that
follows a script. While the engine deals with a request it makes the first
intervention that fits, if any; the intervention may ask the engine in turn.
Everything that passes between heaps and engine is written down in order. -/
namespace Precompiled

namespace Rehearsal

/-- A heap outside the session, with counters of its own unless it shares
them with the other heaps outside. -/
structure SeparateHeap where
  heap : Heap
  counters : Option Counters
  deriving DecidableEq, Repr

end Rehearsal

open Rehearsal

structure Rehearsal where
  session : Session
  script : Script := {}
  separate : List SeparateHeap := []
  /-- The counters that heaps outside the session may share. -/
  sharedCounters : Counters := {}
  /-- The heaps in the order in which they were made. -/
  places : List Place := []
  /-- Interventions that were not made yet, oldest first. -/
  interventions : List Intervention := []
  /-- What happened so far. -/
  events : List Event := []
  /-- How many libraries were given addresses. -/
  librariesPlaced : Nat := 0

namespace Rehearsal

/-- A rehearsal of a session in which nothing is loaded. -/
def start (options : SessionOptions) (engine : EngineSettings) : Rehearsal where
  session := { options, engine }

/-- A computation on a rehearsal that asks nobody. -/
abbrev Update (α : Type) := StateM Rehearsal α

/-- A computation on a rehearsal that may ask the engine. -/
abbrev Operation (α : Type) := Action Engine.signature Rehearsal α

/-! ## Heaps -/

variable (rehearsal : Rehearsal)

def heapAt? : Place → Option Heap
  | .member position => rehearsal.session.heaps[position]?
  | .separate index => rehearsal.separate[index]?.map SeparateHeap.heap

/-- The heap with a number, counted in the order in which heaps were made. -/
def heap? (number : Nat) : Option Heap :=
  rehearsal.places[number]?.bind rehearsal.heapAt?

/-- The counters that a heap writes to. -/
def countersAt : Place → Counters
  | .member _ => rehearsal.session.counters
  | .separate index =>
    (rehearsal.separate[index]?.bind SeparateHeap.counters).getD rehearsal.sharedCounters

/-- All heaps in the order in which they were made. -/
def heaps : List Heap :=
  rehearsal.places.filterMap rehearsal.heapAt?

/-- The session inside a rehearsal. -/
def sessionPart : Part Session Rehearsal where
  get rehearsal := rehearsal.session
  set session rehearsal := { rehearsal with session }

/-- A heap outside the session with its counters. The journal is that of the
session, so that all entries are in one order. -/
def separateCell (index : Nat) : Part Heap.Cell Rehearsal where
  get rehearsal :=
    { state := (rehearsal.separate[index]?.map fun entry => entry.heap.state).getD default
      counters := rehearsal.countersAt (.separate index)
      journal := rehearsal.session.journal }
  set cell rehearsal :=
    let shares := rehearsal.separate[index]?.any fun entry => entry.counters.isNone
    { rehearsal with
      separate := rehearsal.separate.modify index fun entry =>
        { heap := { entry.heap with state := cell.state }
          counters := entry.counters.map fun _ => cell.counters }
      sharedCounters := if shares then cell.counters else rehearsal.sharedCounters
      session := { rehearsal.session with journal := cell.journal } }

/-- A heap with its counters and the journal. -/
def cell : Place → Part Heap.Cell Rehearsal
  | .member position =>
    { get := fun rehearsal => (Session.cell position).get rehearsal.session
      set := fun cell rehearsal =>
        { rehearsal with session := (Session.cell position).set cell rehearsal.session } }
  | .separate index => separateCell index

/-- Makes a call to a heap; there is no reply where there is no heap. -/
def perform (place : Place) (call : Heap.Call) : Operation (Option call.Reply) := do
  match ← Action.read fun rehearsal : Rehearsal => rehearsal.heapAt? place with
  | none => return none
  | some heap => return some (← Action.within (cell place) (Heap.perform heap.image call))

/-! ## The engine's part -/

/-- Writes down an event. -/
def record (event : Event) : Action .silent Rehearsal Unit :=
  Action.update fun rehearsal => { rehearsal with events := rehearsal.events ++ [event] }

/-- Takes the oldest intervention that fits a request. -/
def takeIntervention (request : Engine.Request) (rehearsal : Rehearsal) :
    Option Intervention × Rehearsal :=
  let fits (intervention : Intervention) := intervention.fits request
  (rehearsal.interventions.find? fits,
    { rehearsal with interventions := rehearsal.interventions.eraseP fits })

/-- Deals with a request: writes it down, makes the intervention that fits, and
answers from the script. Every intervention is made at most once, so their
number bounds how deep requests can nest. -/
def respond : Nat → (request : Engine.Request) → Action .silent Rehearsal request.Answer
  | limit, request => do
    record (.asked request)
    match limit with
    | 0 => pure ()
    | limit + 1 =>
      if let some intervention ← Action.step (takeIntervention request) then
        let reply ← Action.answeredBy (respond limit)
          (perform intervention.place intervention.call)
        if let some reply := reply then
          record (.intervened intervention.call reply)
    Action.read fun rehearsal => rehearsal.script.answer request

/-- Runs an operation with the scripted engine as its partner. -/
def run (operation : Operation α) : Update α := fun rehearsal =>
  (Action.answeredBy (respond rehearsal.interventions.length) operation).run rehearsal

/-- Makes a call to a heap. -/
def call (place : Place) (call : Heap.Call) : Update (Option call.Reply) :=
  run (perform place call)

/-- Runs an operation on the whole session. -/
def onSession (operation : Session.Operation α) : Update α :=
  run (Action.within sessionPart operation)

/-- Changes what the engine knows. -/
def editScript (edit : Script → Script) : Update Unit :=
  modify fun rehearsal => { rehearsal with script := edit rehearsal.script }

/-- Plans an intervention. -/
def intervene (intervention : Intervention) : Update Unit :=
  modify fun rehearsal =>
    { rehearsal with interventions := rehearsal.interventions ++ [intervention] }

/-- Takes what was written down since the last time: what passed between heaps
and engine, and the journal. -/
def takeNotes : Update (List Event × Journal) := do
  let rehearsal ← get
  set { rehearsal with events := [], session := { rehearsal.session with journal := [] } }
  return (rehearsal.events, rehearsal.session.journal)

/-! ## Libraries and heaps -/

/-- Updates the session without asking anybody. -/
def updating (update : Session.Update α) : Update α := do
  let (result, session) := update.run (← get).session
  modify fun rehearsal => { rehearsal with session }
  return result

/-- Reports into the journal of the session. -/
def reporting (reported : Reported α) : Update α :=
  updating (Session.reporting reported)

/-- How far apart the code of two libraries lies: no offset of 64 bits leads
from the code of one into the code of another. -/
def codeDistance : Nat := UInt64.size

/-- An address for the code of the next library, away from all others. -/
def takeCodeBase : Update Nat := do
  let count := (← get).librariesPlaced + 1
  modify fun rehearsal => { rehearsal with librariesPlaced := count }
  return count * codeDistance

/-- Numbers a heap that was just made. -/
def number (place : Place) : Update Nat := do
  let count := (← get).places.length
  modify fun rehearsal => { rehearsal with places := rehearsal.places ++ [place] }
  return count

/-- Loads a library outside the session. -/
def loadLibrary (data : Bytes) (name : String) (id : Nat) (verifyChecksum mapCode : Bool) :
    Update (Except Error Library) := do
  reporting (Library.load data name id { verifyChecksum, mapCode, codeBase := ← takeCodeBase })

/-- Loads a library outside the session from a file whose contents are at hand
unless it does not exist, mapping its code. -/
def loadLibraryFile (data : Option Bytes) (path : String) (id : Nat) :
    Update (Except Error Library) := do
  match data with
  | none => return .error .missingFile
  | some data =>
    reporting (Library.loadFile data path id { mapCode := true, codeBase := ← takeCodeBase })

/-- Makes a heap outside the session. The result is its number. -/
def addHeap (library : Library) (shareCounters : Bool) : Update (Except Error Nat) := do
  match ← reporting (Heap.create library) with
  | .error error => return .error error
  | .ok heap =>
    let index := (← get).separate.length
    let entry : SeparateHeap := { heap, counters := if shareCounters then none else some {} }
    modify fun rehearsal => { rehearsal with separate := rehearsal.separate ++ [entry] }
    return .ok (← number (.separate index))

/-- Numbers the heap that loading added to the session, if it added one. -/
def numberLoaded (outcome : Except Error (Option Nat)) : Update (Except Error (Option Nat)) := do
  match outcome with
  | .ok (some position) => return .ok (some (← number (.member position)))
  | other => return other

/-- Loads a library from memory into the session. The result is the number of
its heap. -/
def load (data : Bytes) (name : String) : Update (Except Error (Option Nat)) := do
  numberLoaded (← updating (Session.load data name (← takeCodeBase)))

/-- Loads a library from a file into the session. The result is the number of
its heap. -/
def loadFile (data : Option Bytes) (path : String) : Update (Except Error (Option Nat)) := do
  numberLoaded (← updating (Session.loadFile data path (← takeCodeBase)))

end Rehearsal

end Precompiled
