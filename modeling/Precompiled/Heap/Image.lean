import Precompiled.Library
import Precompiled.LinkedCode

/-! The fixed half of a heap: the library and what was derived from it when the
heap was created. It answers where a piece of code lies and which segment an
address belongs to, and it never changes. -/
namespace Precompiled.Heap

open Blob

/-- A code record together with the class that owns it; stubs have none. -/
structure OwnedRecord where
  record : CodeRecord
  classId : Option Nat
  deriving DecidableEq, Repr

structure Image where
  library : Library
  /-- Per code id, its record; the last one that claims the id. -/
  records : List (Option OwnedRecord)
  deriving DecidableEq, Repr

/-- A class record of the blob under its number. -/
structure ClassEntry where
  classId : Nat
  record : ClassRecord
  deriving DecidableEq, Repr

/-- A signed offset or count as a natural number. -/
def natural? (value : Int32) : Option Nat :=
  if value < 0 then none else some value.toInt.toNat

/-- Follows the back-links of a segment map to the segment where the code
starts. A link of zero is the start, a free segment belongs to no code, and a
link that leads out of the map leads nowhere. -/
def segmentStart (map : Bytes) (segment : Nat) : Option Nat :=
  match map[segment]? with
  | none => none
  | some link =>
    if link = freeSegment then none
    else if link = 0 then some segment
    else if segment < link.toNat then none
    else segmentStart map (segment - link.toNat)
termination_by segment
decreasing_by
  have positive : 0 < link.toNat := by
    rcases Nat.eq_zero_or_pos link.toNat with zero | positive
    · exact absurd (UInt8.toNat_inj.mp zero) ‹¬link = 0›
    · exact positive
  omega

namespace Image

variable (image : Image)

/-- How many classes the blob holds. -/
def classCount : Nat :=
  image.library.header.classCount.toNat

/-- How many slots the heap has. -/
def slotCount : Nat :=
  image.library.header.slotCount.toNat

/-- Bytes of code per segment. -/
def segmentSize : Nat :=
  image.library.settings.codeSegmentSize.toInt.toNat

/-- The record of a code id, if any claims it. -/
def record? (codeId : Nat) : Option OwnedRecord :=
  image.records[codeId]?.join

/-- The code ids whose records belong to a class, in order. -/
def codesOf (classId : Nat) : List Nat :=
  image.records.zipIdx.filterMap fun (owned, codeId) =>
    if owned.any (fun owned => owned.classId = some classId) then some codeId else none

/-- The class of the blob with a number. -/
def classEntry? (classId : Nat) : Option ClassEntry :=
  if classId < image.classCount then
    (image.library.classRecord classId).toOption.map fun record => ⟨classId, record⟩
  else none

/-- The class of the blob that owns a metaspace slot. -/
def classOfSlot? (gotIndex : Nat) : Option ClassEntry :=
  ((List.range image.classCount).filterMap image.classEntry?).find? fun entry =>
    natural? entry.record.gotIndex = some gotIndex

/-- The code that a record and its detail describe, after its geometry was
checked. -/
def place (record : CodeRecord) (detail : CodeDetail) (name : MethodName)
    (method : Option MethodRef) (holder : Option ClassRef) (classId : Option Nat) :
    Except Error LinkedCode := do
  let refuse {α : Type} (fault : GeometryFault) : Except Error α :=
    .error (.format image.library.name (.geometry fault name))
  let some offset := natural? record.codeOffset | refuse .codeOffset
  let size := detail.codeSize.toNat
  if offset % image.segmentSize ≠ 0 then refuse .unaligned
  if image.library.codeSize < offset + size then refuse .codeRange
  if size ≤ detail.entryOffset.toNat ∨ size ≤ detail.verifiedEntryOffset.toNat then
    refuse .entryPoint
  let some start := natural? record.metadataStart | refuse .metadataOffset
  let some count := natural? record.metadataCount | refuse .metadataCount
  if image.library.header.metadataSize.toNat < start + count ∨
      detail.metadataNames.length ≠ count then
    refuse .metadataRange
  return {
    codeId := record.codeId.toUInt32.toNat
    libraryId := image.library.id
    name, method, holder, classId
    start := image.library.codeBase + offset
    size
    entryOffset := detail.entryOffset.toNat
    verifiedEntryOffset := detail.verifiedEntryOffset.toNat
    frameSize := detail.frameSize.toNat
    metadataStart := start
    metadataStop := start + count }

/-- The code id in front of the code that an offset from the code base may
belong to. -/
def codeIdOf? (offset : Nat) : Option Nat := do
  let first ← segmentStart image.library.contents.segments (offset / image.segmentSize)
  let codeId ← (image.library.codeIdAt (first * image.segmentSize)).toOption
  natural? codeId

end Image

end Precompiled.Heap
