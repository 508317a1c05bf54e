import Precompiled.Blob.Header
import Precompiled.Checksum

/-! Blobs that were changed after they had been assembled: cut short, continued
or overwritten. A changed blob can be given a fresh checksum, so that what was
changed is found by the checks behind it. -/
namespace Precompiled.Blob

structure Damage where
  /-- How many bytes are kept at most. -/
  keep : Option Nat := none
  /-- What follows the bytes that were kept. -/
  extra : Bytes := []
  /-- Bytes to be written over those at an offset. -/
  patches : List (Nat × Bytes) := []
  /-- The checksum is computed anew, where there is a whole header. -/
  freshChecksum : Bool := false
  deriving DecidableEq, Repr, Inhabited

namespace Damage

/-- Writes over the bytes from an offset on; what would lie past the end is
left out. -/
def patch (data : Bytes) (offset : Nat) (replacement : Bytes) : Bytes :=
  (overwrite offset replacement data).take data.length

/-- Where the header keeps the checksum. -/
def checksumOffset : Nat := headerSize - 4

/-- Stores the checksum of what follows the header. -/
def refreshChecksum (data : Bytes) : Bytes :=
  if headerSize ≤ data.length then
    patch data checksumOffset (word32 (Checksum.crc32 (data.drop headerSize)))
  else data

/-- The blob after the damage. -/
def apply (damage : Damage) (blob : Bytes) : Bytes :=
  let kept := match damage.keep with
    | some count => blob.take count
    | none => blob
  let patched := damage.patches.foldl
    (fun data (offset, replacement) => patch data offset replacement) (kept ++ damage.extra)
  if damage.freshChecksum then refreshChecksum patched else patched

end Damage

end Precompiled.Blob
