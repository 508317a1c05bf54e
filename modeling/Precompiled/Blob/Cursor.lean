import Precompiled.Bytes

/-! Reading a blob. A cursor is a position together with the bytes after it; a
decoder moves a cursor and either yields a value or says why it cannot. A
failed read reports the offset at which it started, and only the bytes that
were really consumed count as read. -/
namespace Precompiled.Blob

/-- Why bytes could not be decoded. -/
inductive DecodeError where
  /-- A read of `needed` bytes ran past the end. -/
  | unexpectedEnd (offset needed : Nat)
  /-- A negative or otherwise unusable offset was followed. -/
  | invalidOffset (offset : Int)
  /-- The text starting at `offset` is not UTF-8. -/
  | invalidText (offset : Nat)
  /-- A flag byte holds something other than zero or one. -/
  | invalidFlag (value : UInt8) (offset : Nat)
  deriving DecidableEq, Repr

/-- The text shown for a decode failure. -/
def DecodeError.message : DecodeError → String
  | .unexpectedEnd offset needed =>
    s!"unexpected end of data at offset {offset} (need {needed} bytes)"
  | .invalidOffset offset => s!"invalid offset {offset}"
  | .invalidText offset => s!"invalid UTF-8 string at offset {offset}"
  | .invalidFlag value offset => s!"invalid boolean value {value.toNat} at offset {offset}"

/-- A position in a byte string and the bytes from there to its end. -/
structure Cursor where
  position : Nat
  rest : Bytes
  deriving DecidableEq, Repr

namespace Cursor

/-- The start of a byte string. -/
def start (data : Bytes) : Cursor :=
  ⟨0, data⟩

/-- The cursor at `offset`, which may be the very end. -/
def at? (data : Bytes) (offset : Nat) : Except DecodeError Cursor :=
  if offset ≤ data.length then .ok ⟨offset, data.drop offset⟩ else .error (.unexpectedEnd offset 0)

/-- The cursor at a signed offset; negative ones are refused by name. -/
def atSigned? (data : Bytes) (offset : Int32) : Except DecodeError Cursor :=
  if offset < 0 then .error (.invalidOffset offset.toInt) else at? data offset.toInt.toNat

/-- How many bytes are left. -/
def remaining (cursor : Cursor) : Nat :=
  cursor.rest.length

end Cursor

/-- A step that reads from a cursor. The cursor is returned after a failure
too, since what was consumed stays consumed. -/
def Decoder (α : Type) : Type :=
  Cursor → Except DecodeError α × Cursor

namespace Decoder

instance : Monad Decoder where
  pure value := fun cursor => (.ok value, cursor)
  bind first next := fun cursor =>
    match first cursor with
    | (.ok value, after) => next value after
    | (.error error, after) => (.error error, after)

/-- Stops with an error, reading nothing. -/
def fail (error : DecodeError) : Decoder α :=
  fun cursor => (.error error, cursor)

/-- The current position. -/
def position : Decoder Nat :=
  fun cursor => (.ok cursor.position, cursor)

/-- How many bytes are left. -/
def remaining : Decoder Nat :=
  fun cursor => (.ok cursor.remaining, cursor)

/-- The outcome alone, for a cursor that will not be used again. -/
def run (decoder : Decoder α) (cursor : Cursor) : Except DecodeError α :=
  (decoder cursor).1

/-- Decodes at an offset of a byte string. -/
def runAt (decoder : Decoder α) (data : Bytes) (offset : Nat) : Except DecodeError α := do
  decoder.run (← Cursor.at? data offset)

/-- Decodes at a signed offset of a byte string. -/
def runAtSigned (decoder : Decoder α) (data : Bytes) (offset : Int32) : Except DecodeError α := do
  decoder.run (← Cursor.atSigned? data offset)

/-- The next `count` bytes. -/
def bytes (count : Nat) : Decoder Bytes := fun cursor =>
  let chunk := cursor.rest.take count
  if chunk.length = count then (.ok chunk, ⟨cursor.position + count, cursor.rest.drop count⟩)
  else (.error (.unexpectedEnd cursor.position count), cursor)

/-- The next `width` bytes as a little-endian number. -/
def natural (width : Nat) : Decoder Nat := do
  return ofLittleEndian (← bytes width)

def uint8 : Decoder UInt8 := return UInt8.ofNat (← natural 1)

def uint16 : Decoder UInt16 := return UInt16.ofNat (← natural 2)

def uint32 : Decoder UInt32 := return UInt32.ofNat (← natural 4)

def int32 : Decoder Int32 := return (← uint32).toInt32

def uint64 : Decoder UInt64 := return UInt64.ofNat (← natural 8)

/-- A flag byte, which must be zero or one. -/
def flag : Decoder Bool := do
  let offset ← position
  let value ← uint8
  if value = 0 then return false
  else if value = 1 then return true
  else fail (.invalidFlag value offset)

/-- Text of `count` bytes, reported at its own first byte when malformed. -/
def text (count : Nat) : Decoder String := do
  let offset ← position
  match textOfBytes? (← bytes count) with
  | some text => return text
  | none => fail (.invalidText offset)

/-- A text behind its 16-bit byte count. -/
def name : Decoder String := do
  text (← uint16).toNat

/-- Text up to a zero byte. Nothing is consumed unless the whole text and its
terminator are there and well formed. -/
def cString : Decoder String := fun cursor =>
  let chunk := cursor.rest.takeWhile (· ≠ 0)
  match cursor.rest.drop chunk.length with
  | [] => (.error (.unexpectedEnd cursor.position (chunk.length + 1)), cursor)
  | _ :: rest =>
    match textOfBytes? chunk with
    | some text => (.ok text, ⟨cursor.position + chunk.length + 1, rest⟩)
    | none => (.error (.invalidText cursor.position), cursor)

/-- Runs a decoder `count` times, stopping at the first failure. -/
def times (decoder : Decoder α) : Nat → Decoder (List α)
  | 0 => return []
  | count + 1 => do
    let first ← decoder
    let rest ← times decoder count
    return first :: rest

/-- An element count, refused unless it is non-negative and that many
four-byte items can follow. -/
def count : Decoder Nat := do
  let offset ← position
  let value ← int32
  if value < 0 then fail (.invalidOffset value.toInt)
  else
    let needed := 4 * value.toInt.toNat
    if (← remaining) < needed then fail (.unexpectedEnd offset needed)
    else return value.toInt.toNat

/-- A counted list of signed words. -/
def int32List : Decoder (List Int32) := do
  int32.times (← count)

/-- A counted list of unsigned words. -/
def uint32List : Decoder (List UInt32) := do
  uint32.times (← count)

end Decoder

end Precompiled.Blob
