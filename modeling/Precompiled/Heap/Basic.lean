import Precompiled.Heap.Image
import Precompiled.Heap.State

/-! A heap links one library into a running engine. Creating it checks
everything that linking will rely on and registers the library's stubs, which
are executable from the start. -/
namespace Precompiled

open Blob

structure Heap where
  image : Heap.Image
  state : Heap.State
  deriving DecidableEq, Repr

namespace Heap

/-- Counts code of this library towards the bounds, once per slot. The result
says whether this call did. -/
def State.admitCode (image : Image) (code : LinkedCode) (state : State) : Bool × State :=
  if code.libraryId ≠ image.library.id then (false, state)
  else
    match state.slots[code.codeId]? with
    | none => (false, state)
    | some slot =>
      if slot.admitted then (false, state)
      else
        let base := image.library.codeBase
        (true, { state with
          slots := state.slots.set code.codeId slot.markAdmitted.2
          extent := state.extent.widen (UInt32.ofNat (code.start - base))
            (UInt32.ofNat (code.stop - base)) })

/-- The slot of a code record, if the header makes room for it. -/
def slotOf (library : Library) (record : CodeRecord) : Except Error Nat :=
  match natural? record.codeId with
  | some index =>
    if index < library.header.slotCount.toNat then .ok index
    else .error (.format library.name (.codeId record.codeId))
  | none => .error (.format library.name (.codeId record.codeId))

/-- Pairs records with the slots they claim. -/
def claims (library : Library) (classId : Option Nat) (records : List CodeRecord) :
    Except Error (List (Nat × OwnedRecord)) :=
  records.mapM fun record => do
    return (← slotOf library record, { record, classId })

/-- What `count` classes from `classId` on claim. A class record has to carry
its own number and a metaspace slot inside the table. -/
def classClaims (library : Library) : Nat → Nat → Except Error (List (Nat × OwnedRecord))
  | 0, _ => .ok []
  | count + 1, classId => do
    let record ← library.classRecord classId
    let gotIndex := natural? record.gotIndex
    if natural? record.classId ≠ some classId ∨
        ¬gotIndex.any (fun index => index < library.header.metaspaceSize.toNat) then
      throw (.format library.name (.classRecord classId))
    let own ← claims library (some classId) (← library.methodsOf record)
    return own ++ (← classClaims library count (classId + 1))

/-- The largest code section whose offsets fit a word. -/
def maxCodeSize : Nat := 4294967295

/-- The fixed half of the heap of a library, and the records of its stubs. -/
def prepare (library : Library) : Except Error (Image × List CodeRecord) := do
  if !library.valid then throw (.invalidLibrary library.name)
  let refuse (fault : FormatFault) : Error := .format library.name fault
  if !library.settings.hasSegmentSize then
    throw (refuse (.segmentSize library.settings.codeSegmentSize))
  if maxCodeSize < library.codeSize then throw (refuse (.codeSize library.codeSize))
  let covered := library.contents.segments.length * library.settings.codeSegmentSize.toInt.toNat
  if covered < library.codeSize then throw (refuse .segmentMap)
  let fromClasses ← classClaims library library.header.classCount.toNat 0
  let stubs ← library.stubRecords
  let fromStubs ← claims library none stubs
  let records := (fromClasses ++ fromStubs).foldl
    (fun records (index, owned) => records.set index (some owned))
    (List.replicate library.header.slotCount.toNat none)
  return ({ library, records }, stubs)

/-- The moving half of a heap before anything happened. -/
def Image.initialState (image : Image) : State where
  slots := List.replicate image.slotCount {}
  loaders := List.replicate image.classCount none
  metaspace := .empty image.library.header.metaspaceSize.toNat
  metadata := .empty image.library.header.metadataSize.toNat
  objects := .empty image.library.header.objectSize.toNat

/-- Puts one stub into its slot, unless another stub claimed the slot first. -/
def registerStub (image : Image) (state : State) (record : CodeRecord) :
    Reported (Except Error State) := do
  let placed : Except Error LinkedCode := do
    let name ← image.library.methodName record
    let detail ← image.library.detailOf record
    image.place record detail name none none none
  match placed with
  | .error error => return .error error
  | .ok stub =>
    match state.slots[stub.codeId]? with
    | none => return .ok state
    | some slot =>
      let (stored, slot) := slot.publishStub stub
      if stored then
        let state := { state with slots := state.slots.set stub.codeId slot }
        let (_, state) := state.admitCode image stub
        Reported.note .trace .methods
          s!"stub {stub.name.display} at 0x{Text.hexNumber stub.start}"
        return .ok state
      else return .ok state

/-- Puts the stubs into their slots, one after the other. -/
def registerStubs (image : Image) : State → List CodeRecord → Reported (Except Error State)
  | state, [] => return .ok state
  | state, record :: rest => do
    match ← registerStub image state record with
    | .error error => return .error error
    | .ok state => registerStubs image state rest

/-- The heap of a library, with its stubs registered. -/
def create (library : Library) : Reported (Except Error Heap) := do
  match prepare library with
  | .error error => return .error error
  | .ok (image, stubs) =>
    match ← registerStubs image image.initialState stubs with
    | .error error => return .error error
    | .ok state =>
      Reported.note .debug .loading (s!"code heap for {library.name}: " ++
        s!"{image.slotCount} slots, {stubs.length} stubs, GOT sizes " ++
        s!"{state.metaspace.size}/{state.metadata.size}/{state.objects.size}")
      return .ok { image, state }

end Heap

end Precompiled
