import Precompiled.Heap.Call
import Precompiled.Inspection.Library

/-! Heaps and what happens to them as trees. -/
namespace Precompiled

/-! ## What calls reply -/

instance : Inspect Heap.ClassEntry := ⟨fun entry => .record [
  ("class_id", inspect entry.classId),
  ("record", inspect entry.record)]⟩

instance : Inspect Heap.SweepReport := ⟨fun report => .list [
  inspect report.invalidated,
  inspect report.deoptimized,
  inspect report.alreadyInvalidated,
  inspect report.stubsSkipped]⟩

/-- Library and code id, which tell pieces of code apart. -/
def LinkedCode.key (code : LinkedCode) : Nat × Nat :=
  (code.libraryId, code.codeId)

instance : Inspect Slot.Publication
  where inspect
    | .published code => .record [("published", inspect code.key)]
    | .alreadyPublished code => .record [("already", inspect code.key)]
    | .invalidated => .text "Invalidated"
    | .waiting => .text "Waiting"

instance : Inspect Slot.Invalidation
  where inspect
    | .invalidated wasResolved => .record [("invalidated", .flag wasResolved)]
    | .alreadyInvalidated => .text "AlreadyInvalidated"
    | .stub => .text "RuntimeStub"

/-- The reply to a call is shown as what it is. -/
instance : (call : Heap.Call) → Inspect call.Reply
  | .loadClass _ => inferInstanceAs (Inspect (Except Miss Nat))
  | .resolveClass _ => inferInstanceAs (Inspect (Except Miss Heap.ClassEntry))
  | .findClass _ => inferInstanceAs (Inspect (Option Heap.ClassEntry))
  | .classFromSlot _ _ => inferInstanceAs (Inspect (Option ClassRef))
  | .resolveMetaspace _ _ => inferInstanceAs (Inspect (Except Error ClassRef))
  | .resolveMetadata _ _ _ => inferInstanceAs (Inspect (Except Error MetadataRef))
  | .resolveObject _ => inferInstanceAs (Inspect (Except Error ObjectRef))
  | .updateObjects _ => inferInstanceAs (Inspect (List ObjectRef))
  | .publish _ => inferInstanceAs (Inspect Slot.Publication)
  | .admitCode _ => inferInstanceAs (Inspect Bool)
  | .sweep _ | .sweepEntry _ | .flush _ | .unload _ => inferInstanceAs (Inspect Heap.SweepReport)

/-! ## State -/

instance : Inspect Slot.Phase
  where inspect
    | .unresolved => .text "Unresolved"
    | .resolved => .text "Resolved"
    | .invalidated => .text "Invalidated"

/-- A phase as one letter. -/
def Slot.Phase.letter : Slot.Phase → Char
  | .unresolved => 'U'
  | .resolved => 'R'
  | .invalidated => 'I'

/-- The phases of all slots, a letter each. -/
def Heap.phases (heap : Heap) : String :=
  String.ofList (heap.state.slots.map fun slot => slot.phase.letter)

instance : Inspect Counters := ⟨fun counters => .record [
  ("classes_examined", inspect counters.classesExamined),
  ("classes_found", inspect counters.classesFound),
  ("fingerprint_misses", inspect counters.fingerprintMisses),
  ("classloader_misses", inspect counters.classloaderMisses),
  ("methods_published", inspect counters.methodsPublished),
  ("methods_invalidated", inspect counters.methodsInvalidated),
  ("unresolved_references", inspect counters.unresolvedReferences)]⟩

instance : Inspect Heap.MetaspaceEntry
  where inspect
    | .klass value => .list [.text "klass", inspect value]
    | .metadata value => .list [.text "metadata", inspect value]

instance : Inspect AgreedShifts :=
  ⟨fun shifts => .list [inspect shifts.narrowOop, inspect shifts.narrowKlass]⟩

instance : Inspect Extent := ⟨fun extent => inspect extent.bounds?⟩

/-- A table on one line. -/
def Got.diagnostic (table : Got α) : String :=
  describe "GotTable"
    [("len", toString table.size), ("resolved", toString table.resolved.length)]

/-- An extent on one line. -/
def Extent.diagnostic (extent : Extent) : String :=
  match extent.bounds? with
  | none => "None"
  | some (low, high) => s!"Some(({low.toNat}, {high.toNat}))"

namespace Heap

variable (heap : Heap)

/-- A heap on one line. -/
def diagnostic : String :=
  describe "AotCodeHeap"
    [("library", Text.quoted heap.image.library.name),
     ("slots", toString heap.state.slots.length),
     ("bounds", heap.state.extent.diagnostic)]

/-- Where the admitted code of a heap lies, counted from the start of its code. -/
def boundsTree : Tree :=
  let base := heap.image.library.codeBase
  .record [
    ("empty", .flag heap.isEmpty),
    ("low", inspect (heap.lowBoundary - base)),
    ("high", inspect (heap.highBoundary - base)),
    ("debug", .text heap.diagnostic),
    ("mapped", .flag heap.image.library.mapped)]

/-- The first `count` slots of each reference table. -/
def tablesTree (count : Nat) : Tree :=
  let values {entity : Entity} (table : Got (Handle entity)) : Tree :=
    inspect ((List.range count).map table.get)
  .record [
    ("metaspace", values heap.state.metaspace),
    ("metadata", values heap.state.metadata),
    ("oop", values heap.state.objects)]

/-! ## Addresses -/

/-- The address at an offset from the start of the code, in front of it too. -/
def addressAt (offset : Int) : Nat :=
  (heap.image.library.codeBase + offset).toNat

/-- What an address belongs to. -/
structure Classification where
  contained : Bool
  /-- The code id of the executable code that covers the address. -/
  owner : Option Nat
  /-- Where the code that covers the address starts, counted from the start of
  the library's code. -/
  start : Option Nat
  deriving DecidableEq, Repr

/-- What the address at an offset belongs to. -/
def classify (offset : Int) : Classification :=
  let address := heap.addressAt offset
  { contained := heap.contains address
    owner := (heap.findOwner address).map LinkedCode.codeId
    start := (heap.findStart address).map fun start => start - heap.image.library.codeBase }

/-- Classifies `count` offsets, `stride` apart, and keeps those where the
outcome differs from the one before. -/
def scanFrom (stride : Nat) : Nat → Int → Option Classification → List (Int × Classification)
  | 0, _, _ => []
  | count + 1, offset, before =>
    let found := heap.classify offset
    let rest := scanFrom stride count (offset + stride) (some found)
    if before = some found then rest else (offset, found) :: rest

/-- Where the outcome of classifying changes between two offsets. -/
def scan (first stop : Int) (stride : Nat) : List (Int × Classification) :=
  let stride := max stride 1
  heap.scanFrom stride (((stop - first).toNat + stride - 1) / stride) first none

instance : Inspect Classification := ⟨fun found => .record [
  ("contains", .flag found.contained),
  ("owner", inspect found.owner),
  ("start", inspect found.start)]⟩

/-- The outcome of a scan. -/
def scanTree (changes : List (Int × Classification)) : Tree :=
  .list (changes.map fun (offset, found) => .list [.number offset,
    .list [.flag found.contained, inspect found.owner, inspect found.start]])

end Heap

end Precompiled
