import Precompiled.Bytes

/-! The checksum of a blob: the reflected CRC-32 with polynomial `0xEDB88320`,
all ones before the first byte and inverted after the last. It is computed one
bit at a time, because a single bit step is linear in exclusive or and
everything the checksum detects follows from that. -/
namespace Precompiled.Checksum

/-- The reflected generator polynomial. -/
def polynomial : UInt32 := 0xEDB88320

/-- Moves the remainder down by one bit. -/
def shift (remainder : UInt32) : UInt32 :=
  if remainder &&& 1 = 0 then remainder >>> 1 else (remainder >>> 1) ^^^ polynomial

/-- Repeated bit steps. -/
def shifts : Nat → UInt32 → UInt32
  | 0, remainder => remainder
  | count + 1, remainder => shifts count (shift remainder)

/-- Takes one byte into the remainder. -/
def absorb (remainder : UInt32) (byte : UInt8) : UInt32 :=
  shifts 8 (remainder ^^^ byte.toUInt32)

/-- The remainder that `bytes` leave, starting from `remainder`. -/
def remainderFrom (remainder : UInt32) (bytes : Bytes) : UInt32 :=
  bytes.foldl absorb remainder

/-- The CRC-32 of a byte string. -/
def crc32 (bytes : Bytes) : UInt32 :=
  remainderFrom 0xFFFFFFFF bytes ^^^ 0xFFFFFFFF

example : crc32 [0x31, 0x32, 0x33, 0x34, 0x35, 0x36, 0x37, 0x38, 0x39] = 0xCBF43926 := by
  decide +kernel

end Precompiled.Checksum
