import Precompiled.Bytes

/-! Writing a blob. Each primitive gives the bytes of one field; alignment and
patching act on the bytes written so far and refuse requests that make no
sense, an alignment of zero and a patch outside what was written. -/
namespace Precompiled.Blob

def word16 (value : UInt16) : Bytes := littleEndian 2 value.toNat

def word32 (value : UInt32) : Bytes := littleEndian 4 value.toNat

def signed32 (value : Int32) : Bytes := word32 value.toUInt32

def word64 (value : UInt64) : Bytes := littleEndian 8 value.toNat

/-- A flag is one byte, zero or one. -/
def flagByte (value : Bool) : Bytes := [if value then 1 else 0]

@[simp] theorem word16_length (value : UInt16) : (word16 value).length = 2 := by simp [word16]

@[simp] theorem word32_length (value : UInt32) : (word32 value).length = 4 := by simp [word32]

@[simp] theorem signed32_length (value : Int32) : (signed32 value).length = 4 := by simp [signed32]

@[simp] theorem word64_length (value : UInt64) : (word64 value).length = 8 := by simp [word64]

@[simp] theorem flagByte_length (value : Bool) : (flagByte value).length = 1 := rfl

/-- The longest text a 16-bit byte count can announce. -/
def maxNameBytes : Nat := 65535

/-- A text behind its 16-bit byte count. Longer texts are cut at the last byte
the count can announce, wherever in a character that falls. -/
def nameBytes (name : String) : Bytes :=
  let kept := (textBytes name).take maxNameBytes
  word16 (UInt16.ofNat kept.length) ++ kept

/-- A counted list of words. -/
def word32List (values : List UInt32) : Bytes :=
  word32 (UInt32.ofNat values.length) ++ values.flatMap word32

/-- A counted list of signed words. -/
def signed32List (values : List Int32) : Bytes :=
  word32 (UInt32.ofNat values.length) ++ values.flatMap signed32

/-- How many bytes lead from `length` to the next multiple of `alignment`. -/
def padding (alignment length : Nat) : Nat :=
  (alignment - length % alignment) % alignment

/-- Fills up to a multiple of `alignment`. -/
def alignTo (alignment : Nat) (fill : UInt8) (written : Bytes) : Bytes :=
  written ++ List.replicate (padding alignment written.length) fill

/-- Fills up to a multiple of `alignment`; there are no multiples of zero. -/
def alignTo? (alignment : Nat) (fill : UInt8) (written : Bytes) : Option Bytes :=
  if alignment = 0 then none else some (alignTo alignment fill written)

/-- Overwrites the bytes from `offset` on; the total length stays the same. -/
def overwrite (offset : Nat) (replacement written : Bytes) : Bytes :=
  written.take offset ++ replacement ++ written.drop (offset + replacement.length)

/-- Overwrites a word that was written before. -/
def patch32? (offset : Nat) (value : UInt32) (written : Bytes) : Option Bytes :=
  if offset + 4 ≤ written.length then some (overwrite offset (word32 value) written) else none

end Precompiled.Blob
