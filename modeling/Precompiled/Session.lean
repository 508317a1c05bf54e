import Precompiled.Compatibility
import Precompiled.Heap.Call
import Precompiled.Settings.SessionOptions

/-! A session owns the heaps of all libraries an engine has loaded, the shifts
they agreed on and the counters they share. Libraries enter through a gate; the
engine's requests are routed to every heap in load order. -/
namespace Precompiled

structure Session where
  options : SessionOptions
  engine : EngineSettings
  shifts : AgreedShifts := {}
  /-- The heaps in load order. -/
  heaps : List Heap := []
  counters : Counters := {}
  /-- The number the next library gets. -/
  nextId : Nat := 0
  journal : Journal := []
  deriving DecidableEq, Repr

namespace Session

/-- A computation on a session that asks nobody. -/
abbrev Update (α : Type) := StateM Session α

/-! ## Loading libraries -/

/-- Reports into the journal of the session. -/
def reporting (reported : Reported α) : Update α := do
  let (result, journal) := reported.run (← get).journal
  modify fun session => { session with journal }
  return result

/-- Whether a library of that name is registered. -/
def isLoaded (session : Session) (name : String) : Bool :=
  session.heaps.any fun heap => heap.image.library.name == name

/-- The number for the next library; it is used up. -/
def takeId : Update Nat := do
  let id := (← get).nextId
  modify fun session => { session with nextId := id + 1 }
  return id

/-- Refuses a library: an error where loading is strict, a warning where it is
not. -/
def reject (error : Error) : Update (Except Error (Option Nat)) := do
  if (← get).options.strictLoading then return .error error
  else
    reporting (Reported.note .warn .loading s!"skipping AOT library: {error.message}")
    return .ok none

/-- Passes a library through the gate, builds its heap and registers it under
the next position. -/
def register (library : Library) : Update (Except Error (Option Nat)) := do
  let session ← get
  let (verdict, library, shifts) ← reporting (library.verify session.engine session.shifts)
  modify fun session => { session with shifts }
  match verdict with
  | .error error => reject error
  | .ok () =>
    match ← reporting (Heap.create library) with
    | .error error => reject error
    | .ok heap =>
      if (← get).isLoaded library.name then reject (.duplicate library.name)
      else
        let position := (← get).heaps.length
        modify fun session => { session with heaps := session.heaps ++ [heap] }
        reporting (Reported.note .info .loading s!"loaded AOT library {library.name}")
        return .ok (some position)

/-- Loads a library from memory. The result is the position of its heap, or
none if loading is disabled or the library was skipped. -/
def load (data : Bytes) (name : String) (codeBase : Nat) : Update (Except Error (Option Nat)) := do
  let session ← get
  if !session.options.enabled then return .ok none
  else if session.isLoaded name then reject (.duplicate name)
  else
    let options : LoadOptions :=
      { verifyChecksum := session.options.verifyChecksum, mapCode := false, codeBase }
    match ← reporting (Library.load data name (← takeId) options) with
    | .error error => reject error
    | .ok library => register library

/-- Loads a library from a file whose contents are at hand unless it does not
exist, mapping its code. The number of the library is taken before the file is
looked at. -/
def loadFile (data : Option Bytes) (path : String) (codeBase : Nat) :
    Update (Except Error (Option Nat)) := do
  let session ← get
  if !session.options.enabled then return .ok none
  else
    let id ← takeId
    match data with
    | none => reject .missingFile
    | some data =>
      let options : LoadOptions :=
        { verifyChecksum := session.options.verifyChecksum, mapCode := true, codeBase }
      match ← reporting (Library.loadFile data path id options) with
      | .error error => reject error
      | .ok library =>
        if (← get).isLoaded library.name then reject (.duplicate library.name)
        else register library

/-- Ends the session, reporting the counters if that was asked for. -/
def close : Update Unit := do
  let session ← get
  if session.options.printStatistics then reporting session.counters.summarize

/-! ## Addresses -/

variable (session : Session)

/-- The heap whose admitted code contains an address. -/
def findHeap (address : Nat) : Option Heap :=
  session.heaps.find? fun heap => heap.contains address

def contains (address : Nat) : Bool :=
  session.heaps.any fun heap => heap.contains address

/-- The executable code that covers an address. -/
def findOwner (address : Nat) : Option LinkedCode :=
  session.heaps.findSome? fun heap => heap.findOwner address

/-- Every resolved metaspace and metadata slot of all heaps. -/
def metaspaceEntries : List Heap.MetaspaceEntry :=
  session.heaps.flatMap fun heap => heap.state.metaspaceEntries

/-! ## Requests to every heap -/

/-- The heap at a position with the counters and the journal of the session. -/
def cell (position : Nat) : Part Heap.Cell Session where
  get session :=
    { state := (session.heaps[position]?.map Heap.state).getD default,
      counters := session.counters, journal := session.journal }
  set cell session :=
    { session with
      heaps := session.heaps.modify position fun heap => { heap with state := cell.state }
      counters := cell.counters
      journal := cell.journal }

/-- A computation on a session that may ask the engine. -/
abbrev Operation (α : Type) := Action Engine.signature Session α

/-- Makes a call to the heaps at the given positions, one after the other. -/
def callEach (call : Heap.Call) : List Nat → Operation (List call.Reply)
  | [] => return []
  | position :: rest => do
    match ← Action.read fun session : Session => session.heaps[position]? with
    | none => callEach call rest
    | some heap =>
      let reply ← Action.within (cell position) (Heap.perform heap.image call)
      return reply :: (← callEach call rest)

/-- Makes a call to every heap that is registered when the call is made. -/
def callAll (call : Heap.Call) : Operation (List call.Reply) := do
  let count ← Action.read fun session : Session => session.heaps.length
  callEach call (List.range count)

/-- The reports of several heaps as one. -/
def mergeReports (reports : List Heap.SweepReport) : Heap.SweepReport :=
  reports.foldl Heap.SweepReport.merge {}

/-- Links a live class in every heap and counts the methods that became
executable. -/
def loadClass (view : ClassView) : Operation Nat := do
  let replies : List (Except Miss Nat) ← callAll (.loadClass view)
  return (replies.filterMap Except.toOption).foldr (· + ·) 0

/-- Sweeps the dependents of the class of a name in every heap. -/
def sweep (name : String) : Operation Heap.SweepReport := do
  return mergeReports (← callAll (.sweep name))

/-- A live class is being redefined. -/
def flush (klass : ClassRef) : Operation Heap.SweepReport := do
  return mergeReports (← callAll (.flush klass))

/-- A live class was unloaded. -/
def unload (klass : ClassRef) : Operation Heap.SweepReport := do
  return mergeReports (← callAll (.unload klass))

/-- Lets the collector move or drop the objects of every heap. -/
def updateObjects (moves : List (ObjectRef × Option ObjectRef)) : Operation (List ObjectRef) := do
  let seen : List (List ObjectRef) ← callAll (.updateObjects moves)
  return seen.flatten

end Session

end Precompiled
