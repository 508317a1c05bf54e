import Precompiled.Blob.Cursor
import Precompiled.Blob.Writer

/-! The header at the start of every blob: what the blob is, how large its
tables are and where the symbol table, the name pool and the engine version
lie. Decoding only reads; whether the values are acceptable is the loader's
question. -/
namespace Precompiled.Blob

/-- Size of the header in bytes. -/
def headerSize : Nat := 56

/-- The eight magic bytes as a little-endian word. The last of them is a one. -/
def magicWord : UInt64 := 0x01544F4141594152

example : word64 magicWord = textBytes "RAYAAOT" ++ [1] := by decide +kernel

/-- The only format version that is understood. -/
def formatVersion : UInt32 := 1

structure Header where
  /-- The eight magic bytes as a little-endian word. -/
  magic : UInt64
  version : UInt32
  classCount : UInt32
  /-- Number of code slots, methods and stubs together. -/
  slotCount : UInt32
  metaspaceSize : UInt32
  metadataSize : UInt32
  objectSize : UInt32
  /-- Offsets below are relative to the start of the blob. -/
  engineVersionOffset : UInt32
  symbolsOffset : UInt32
  symbolCount : UInt32
  namesOffset : UInt32
  namesSize : UInt32
  /-- CRC-32 of every byte after the header. -/
  checksum : UInt32
  deriving DecidableEq, Repr, Inhabited

namespace Header

def decode : Decoder Header := do
  let magic ← Decoder.uint64
  let version ← Decoder.uint32
  let classCount ← Decoder.uint32
  let slotCount ← Decoder.uint32
  let metaspaceSize ← Decoder.uint32
  let metadataSize ← Decoder.uint32
  let objectSize ← Decoder.uint32
  let engineVersionOffset ← Decoder.uint32
  let symbolsOffset ← Decoder.uint32
  let symbolCount ← Decoder.uint32
  let namesOffset ← Decoder.uint32
  let namesSize ← Decoder.uint32
  let checksum ← Decoder.uint32
  return { magic, version, classCount, slotCount, metaspaceSize, metadataSize, objectSize,
           engineVersionOffset, symbolsOffset, symbolCount, namesOffset, namesSize, checksum }

def encode (header : Header) : Bytes :=
  word64 header.magic ++ word32 header.version ++ word32 header.classCount ++
    word32 header.slotCount ++ word32 header.metaspaceSize ++ word32 header.metadataSize ++
    word32 header.objectSize ++ word32 header.engineVersionOffset ++ word32 header.symbolsOffset ++
    word32 header.symbolCount ++ word32 header.namesOffset ++ word32 header.namesSize ++
    word32 header.checksum

/-- A header is always as long as the format says. -/
theorem encode_length (header : Header) : header.encode.length = headerSize := by
  simp [encode, headerSize]

end Header

end Precompiled.Blob
