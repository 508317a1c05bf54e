import Precompiled.Counters
import Precompiled.Engine.Request
import Precompiled.Extent
import Precompiled.Got
import Precompiled.Slot

/-! The moving half of a heap: slots, reference tables, bounds and bindings,
together with the counters and the journal that heap operations write to. -/
namespace Precompiled.Heap

structure State where
  slots : List Slot
  /-- Per class of the blob, the loader that first linked it. A loader once
  bound is never replaced. -/
  loaders : List (Option LoaderId)
  metaspace : Got ClassRef
  metadata : Got MetadataRef
  objects : Got ObjectRef
  extent : Extent := {}
  /-- Live classes that passed linkage, with the class of the blob they are
  bound to. -/
  bindings : List (ClassRef × Nat) := []
  /-- Addresses of the engine's routines, once all of them were found. -/
  routines : Option (List Nat) := none
  /-- A routine was missing, and the heap is unusable for linking. -/
  linkageDisabled : Bool := false
  deriving DecidableEq, Repr, Inhabited

/-- Everything an operation on one heap can touch. -/
structure Cell where
  state : State
  counters : Counters := {}
  journal : Journal := []
  deriving DecidableEq, Repr, Inhabited

/-- An operation on one heap of a running engine. -/
abbrev Operation (α : Type) := Action Engine.signature Cell α

namespace State

/-- The class of the blob that a live class is bound to. -/
def binding? (state : State) (klass : ClassRef) : Option Nat :=
  state.bindings.lookup klass

/-- Binds a live class, replacing an earlier binding of it. -/
def bind (state : State) (klass : ClassRef) (classId : Nat) : State :=
  { state with
      bindings := (klass, classId) :: state.bindings.filter fun binding => binding.1 ≠ klass }

/-- Drops the binding of a live class. -/
def unbind (state : State) (klass : ClassRef) : State :=
  { state with bindings := state.bindings.filter fun binding => binding.1 ≠ klass }

/-- The phase of a slot; there is none outside the table. -/
def phase? (state : State) (codeId : Nat) : Option Slot.Phase :=
  state.slots[codeId]?.map Slot.phase

/-- The loader a class of the blob is bound to. -/
def loader? (state : State) (classId : Nat) : Option LoaderId :=
  state.loaders[classId]?.join

/-- Binds a class of the blob to a loader unless it is bound to another one.
The result says whether it is bound to this one now. -/
def bindLoader (classId : Nat) (loader : LoaderId) (state : State) : Bool × State :=
  match state.loader? classId with
  | some current => (current == loader, state)
  | none => (true, { state with loaders := state.loaders.set classId (some loader) })

end State

namespace Cell

/-- The mutable part of the heap. -/
def heap : Part State Cell where
  get cell := cell.state
  set state cell := { cell with state }

def metaspace : Part (Got ClassRef) Cell where
  get cell := cell.state.metaspace
  set table cell := { cell with state := { cell.state with metaspace := table } }

def metadata : Part (Got MetadataRef) Cell where
  get cell := cell.state.metadata
  set table cell := { cell with state := { cell.state with metadata := table } }

def objects : Part (Got ObjectRef) Cell where
  get cell := cell.state.objects
  set table cell := { cell with state := { cell.state with objects := table } }

end Cell

namespace Operation

/-- Looks at the heap. -/
def look (view : State → α) : Operation α :=
  Action.read fun cell => view cell.state

/-- Changes the heap and yields a result in one step. -/
def change (step : State → α × State) : Operation α :=
  Action.step fun cell =>
    let (result, state) := step cell.state
    (result, { cell with state })

/-- Changes the heap. -/
def alter (step : State → State) : Operation Unit :=
  Action.update fun cell => { cell with state := step cell.state }

/-- Bumps a counter. -/
def count (bump : Counters → Counters) : Operation Unit :=
  Action.update fun cell => { cell with counters := bump cell.counters }

/-- Adds a journal entry. -/
def note (level : Level) (topic : Topic) (text : String) : Operation Unit :=
  Action.update fun cell => { cell with journal := cell.journal ++ [⟨level, topic, text⟩] }

/-- Asks the engine. -/
def ask (request : Engine.Request) : Operation request.Answer :=
  Action.ask (S := Engine.signature) request

/-- Changes one slot; a slot outside the table is left alone and yields
nothing. -/
def changeSlot (codeId : Nat) (step : Slot → α × Slot) : Operation (Option α) :=
  change fun state =>
    match state.slots[codeId]? with
    | none => (none, state)
    | some slot =>
      let (result, after) := step slot
      (some result, { state with slots := state.slots.set codeId after })

end Operation

end Precompiled.Heap
