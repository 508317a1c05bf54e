import Precompiled.Bytes

/-! Lower-case hexadecimal, as messages about a blob's magic and checksum show
it. -/
namespace Precompiled.Text

/-- The lower-case hexadecimal digit of a number below sixteen. -/
def hexDigit (value : Nat) : Char :=
  if value < 10 then Char.ofNat ('0'.toNat + value) else Char.ofNat ('a'.toNat + value - 10)

/-- The last `width` hexadecimal digits of `value`, leading zeros included. -/
def hexPadded : Nat → Nat → String
  | 0, _ => ""
  | width + 1, value => (hexPadded width (value / 16)).push (hexDigit (value % 16))

/-- Hexadecimal digits of `value` without leading zeros, `0` for zero. -/
def hexNumber (value : Nat) : String :=
  String.ofList (Nat.toDigits 16 value)

/-- Bytes as a bracketed list of two-digit numbers. -/
def hexList (bytes : Bytes) : String :=
  "[" ++ ", ".intercalate (bytes.map fun byte => hexPadded 2 byte.toNat) ++ "]"

end Precompiled.Text
