import Precompiled.Heap.Basic

/-! The registry of executable code: look-up and iteration by code id,
classification of addresses, and publishing. Stubs take part in iteration and
classification, but they are no methods and are not looked up as such. -/
namespace Precompiled.Heap

/-! ## By code id -/

namespace State

variable (state : State)

/-- The executable code of a slot, stubs included. -/
def executable? (codeId : Nat) : Option LinkedCode :=
  state.slots[codeId]?.bind Slot.executable

/-- The executable method of a code id; stubs are not returned. -/
def lookup (codeId : Nat) : Option LinkedCode :=
  (state.executable? codeId).filter fun code => !code.isStub

/-- The executable methods in slot order; stubs are left out. -/
def aliveMethods : List LinkedCode :=
  (state.slots.filterMap Slot.executable).filter fun code => !code.isStub

/-- The first executable code from a slot on, stubs included. -/
def nextFrom (start : Nat) : Option LinkedCode :=
  (state.slots.drop start).findSome? Slot.executable

/-- The first executable code. -/
def first : Option LinkedCode :=
  state.nextFrom 0

/-- The first executable code after a code id. -/
def next (codeId : Nat) : Option LinkedCode :=
  state.nextFrom (codeId + 1)

/-- The values of the metadata slots that executable methods own. -/
def ownedMetadata : List MetadataRef :=
  state.aliveMethods.flatMap fun code => code.metadataSlots.filterMap state.metadata.get

end State

/-- A resolved entry of the metaspace or the metadata table. -/
inductive MetaspaceEntry where
  | klass (value : ClassRef)
  | metadata (value : MetadataRef)
  deriving DecidableEq, Repr

/-- Every resolved metaspace and metadata slot. -/
def State.metaspaceEntries (state : State) : List MetaspaceEntry :=
  state.metaspace.resolved.map (fun (_, klass) => .klass klass) ++
    state.metadata.resolved.map fun (_, metadata) => .metadata metadata

/-- Follows `next` from a piece of code on, giving up after `fuel` steps. -/
def State.walkFrom (state : State) : Nat → Option LinkedCode → List LinkedCode
  | 0, _ => []
  | _, none => []
  | fuel + 1, some code => code :: state.walkFrom fuel (state.next code.codeId)

/-- The executable code in the order in which a caller meets it who asks for
the first and then for the next after the code just seen. -/
def State.walk (state : State) : List LinkedCode :=
  state.walkFrom (state.slots.length + 1) state.first

/-! ## By address -/

variable (heap : Heap)

/-- The admitted slot whose code covers an address, with that code. -/
def owningSlot (address : Nat) : Option (Slot × LinkedCode) := do
  let base := heap.image.library.codeBase
  if address < base then none
  else
    let offset := address - base
    if heap.state.extent.contains offset then
      let codeId ← heap.image.codeIdOf? offset
      let slot ← heap.state.slots[codeId]?
      let code ← slot.handle
      if slot.admitted && code.contains address then some (slot, code) else none
    else none

/-- Whether an address lies in admitted code of this heap. -/
def contains (address : Nat) : Bool :=
  (heap.owningSlot address).isSome

/-- The executable code that covers an address. -/
def findOwner (address : Nat) : Option LinkedCode := do
  let (slot, code) ← heap.owningSlot address
  if slot.phase = .resolved then some code else none

/-- The start of the code that covers an address. -/
def findStart (address : Nat) : Option Nat :=
  (heap.owningSlot address).map fun (_, code) => code.start

/-- Lowest admitted address; the code base while nothing is admitted. -/
def lowBoundary : Nat :=
  heap.image.library.codeBase + (heap.state.extent.bounds?.map fun (low, _) => low.toNat).getD 0

/-- One past the highest admitted address; the code base while nothing is
admitted. -/
def highBoundary : Nat :=
  heap.image.library.codeBase + (heap.state.extent.bounds?.map fun (_, high) => high.toNat).getD 0

/-- Whether no code has been admitted yet. -/
def isEmpty : Bool :=
  heap.state.extent.bounds?.isNone

/-! ## Publishing -/

/-- Counts code towards the bounds of the heap. The result says whether this
call did. -/
def admitCode (image : Image) (code : LinkedCode) : Operation Bool :=
  Operation.change (State.admitCode image code)

/-- Publishes code into its slot. The winner is admitted and counted, and the
engine is told to install it. -/
def publish (image : Image) (code : LinkedCode) : Operation Slot.Publication := do
  match ← Operation.changeSlot code.codeId (Slot.publish code) with
  | none =>
    Operation.note .warn .methods s!"publish of unknown code id {code.codeId}"
    return .invalidated
  | some (.published winner) =>
    let _ ← admitCode image winner
    Operation.count fun counters =>
      { counters with methodsPublished := counters.methodsPublished + 1 }
    Operation.note .debug .methods (s!"published {winner.name.display} " ++
      s!"[0x{Text.hexNumber winner.start}, 0x{Text.hexNumber winner.stop})")
    Operation.ask (.install winner)
    return .published winner
  | some other => return other

end Precompiled.Heap
