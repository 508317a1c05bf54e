/-! The extent of the code that has been admitted, as two offsets packed into
one 64-bit word: the low bound in the low half, the high bound in the high
half. A word of zero stands for no code at all, which no real extent needs,
since a real extent has a positive high bound. -/
namespace Precompiled

structure Extent where
  word : UInt64 := 0
  deriving DecidableEq, Repr, Inhabited

namespace Extent

def pack (low high : UInt32) : UInt64 :=
  (high.toUInt64 <<< 32) ||| low.toUInt64

/-- Low and high bound, none while nothing has been admitted. -/
def bounds? (extent : Extent) : Option (UInt32 × UInt32) :=
  if extent.word = 0 then none else some (extent.word.toUInt32, (extent.word >>> 32).toUInt32)

/-- Whether an offset lies between the bounds. -/
def contains (extent : Extent) (offset : Nat) : Bool :=
  match extent.bounds? with
  | none => false
  | some (low, high) => decide (low.toNat ≤ offset) && decide (offset < high.toNat)

/-- Grows the extent to cover `low` up to `high`, never shrinking it. An empty
range changes nothing. -/
def widen (extent : Extent) (low high : UInt32) : Extent :=
  if high ≤ low then extent
  else
    match extent.bounds? with
    | none => ⟨pack low high⟩
    | some (currentLow, currentHigh) => ⟨pack (min currentLow low) (max currentHigh high)⟩

end Extent

end Precompiled
