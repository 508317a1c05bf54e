import Precompiled.Blob.Cursor
import Precompiled.Blob.Writer

/-! The records in the sections of a blob: symbols, classes, compiled code and
the detail of one piece of code. Offsets inside a record are relative to the
section they point into. -/
namespace Precompiled.Blob

/-- The signed offset that stands for an absent list. -/
def noOffset : Int32 := -1

/-- The segment map byte of a segment that holds no code. -/
def freeSegment : UInt8 := 0xff

/-- Bytes in front of the instructions of every piece of code: its code id. -/
def codeHeaderSize : UInt32 := 4

/-- What a symbol names. -/
inductive SymbolKind where
  /-- A section of the blob. -/
  | table
  /-- A class record inside the class section. -/
  | classRecord
  deriving DecidableEq, Repr, Inhabited

namespace SymbolKind

def code : SymbolKind → UInt32
  | .table => 0
  | .classRecord => 1

def ofCode? (code : UInt32) : Option SymbolKind :=
  if code = 0 then some .table else if code = 1 then some .classRecord else none

end SymbolKind

/-- Size of a symbol entry in bytes. -/
def symbolEntrySize : Nat := 16

/-- One entry of the symbol table. -/
structure SymbolEntry where
  /-- Offset of the name in the name pool. -/
  nameOffset : UInt32
  kind : SymbolKind
  /-- Blob offset of the bytes that the symbol names. -/
  offset : UInt32
  size : UInt32
  deriving DecidableEq, Repr, Inhabited

namespace SymbolEntry

/-- An unknown kind is reported as an unusable offset: the one it is read at. -/
def decode : Decoder SymbolEntry := do
  let nameOffset ← Decoder.uint32
  let kindOffset ← Decoder.position
  match SymbolKind.ofCode? (← Decoder.uint32) with
  | none => Decoder.fail (.invalidOffset kindOffset)
  | some kind =>
    let offset ← Decoder.uint32
    let size ← Decoder.uint32
    return { nameOffset, kind, offset, size }

def encode (entry : SymbolEntry) : Bytes :=
  word32 entry.nameOffset ++ word32 entry.kind.code ++ word32 entry.offset ++ word32 entry.size

theorem encode_length (entry : SymbolEntry) : entry.encode.length = symbolEntrySize := by
  simp [encode, symbolEntrySize]

end SymbolEntry

/-- Size of a class record in bytes. -/
def classRecordSize : Nat := 24

/-- One class compiled into the blob. -/
structure ClassRecord where
  /-- The metaspace slot that holds the live class once it is known. -/
  gotIndex : Int32
  /-- Number of the class within the blob. -/
  classId : Int32
  /-- Offset of the class's code records, or `noOffset`. -/
  methodsOffset : Int32
  /-- Offset of the list of code that depends on the class, or `noOffset`. -/
  dependentsOffset : Int32
  /-- Fingerprint of the class's shape at compile time. -/
  fingerprint : UInt64
  deriving DecidableEq, Repr, Inhabited

namespace ClassRecord

def decode : Decoder ClassRecord := do
  let gotIndex ← Decoder.int32
  let classId ← Decoder.int32
  let methodsOffset ← Decoder.int32
  let dependentsOffset ← Decoder.int32
  let fingerprint ← Decoder.uint64
  return { gotIndex, classId, methodsOffset, dependentsOffset, fingerprint }

def encode (record : ClassRecord) : Bytes :=
  signed32 record.gotIndex ++ signed32 record.classId ++ signed32 record.methodsOffset ++
    signed32 record.dependentsOffset ++ word64 record.fingerprint

theorem encode_length (record : ClassRecord) : record.encode.length = classRecordSize := by
  simp [encode, classRecordSize]

end ClassRecord

/-- Size of a code record in bytes. -/
def codeRecordSize : Nat := 24

/-- One compiled method or stub. -/
structure CodeRecord where
  /-- Offset in the name pool of holder, name and signature. -/
  nameOffset : Int32
  /-- Offset in the code section, a multiple of the segment size. -/
  codeOffset : Int32
  /-- Offset of the code's detail. -/
  detailOffset : Int32
  /-- First of the code's metadata slots. -/
  metadataStart : Int32
  /-- How many metadata slots the code owns. -/
  metadataCount : Int32
  /-- Index of the code's slot. -/
  codeId : Int32
  deriving DecidableEq, Repr, Inhabited

namespace CodeRecord

def decode : Decoder CodeRecord := do
  let nameOffset ← Decoder.int32
  let codeOffset ← Decoder.int32
  let detailOffset ← Decoder.int32
  let metadataStart ← Decoder.int32
  let metadataCount ← Decoder.int32
  let codeId ← Decoder.int32
  return { nameOffset, codeOffset, detailOffset, metadataStart, metadataCount, codeId }

def encode (record : CodeRecord) : Bytes :=
  signed32 record.nameOffset ++ signed32 record.codeOffset ++ signed32 record.detailOffset ++
    signed32 record.metadataStart ++ signed32 record.metadataCount ++ signed32 record.codeId

theorem encode_length (record : CodeRecord) : record.encode.length = codeRecordSize := by
  simp [encode, codeRecordSize]

end CodeRecord

/-- The geometry of one piece of code and the references it goes through. -/
structure CodeDetail where
  /-- Size in bytes, the code id in front included. -/
  codeSize : UInt32
  /-- Entry points, relative to the start of the code. -/
  entryOffset : UInt32
  verifiedEntryOffset : UInt32
  frameSize : UInt32
  /-- Name pool offsets that describe the code's metadata slots in order. -/
  metadataNames : List Int32
  /-- Metaspace slots the code reads. -/
  classRefs : List UInt32
  /-- Heap-object slots the code reads. -/
  objectRefs : List UInt32
  deriving DecidableEq, Repr, Inhabited

namespace CodeDetail

def decode : Decoder CodeDetail := do
  let codeSize ← Decoder.uint32
  let entryOffset ← Decoder.uint32
  let verifiedEntryOffset ← Decoder.uint32
  let frameSize ← Decoder.uint32
  let metadataNames ← Decoder.int32List
  let classRefs ← Decoder.uint32List
  let objectRefs ← Decoder.uint32List
  return { codeSize, entryOffset, verifiedEntryOffset, frameSize, metadataNames, classRefs,
           objectRefs }

def encode (detail : CodeDetail) : Bytes :=
  word32 detail.codeSize ++ word32 detail.entryOffset ++ word32 detail.verifiedEntryOffset ++
    word32 detail.frameSize ++ signed32List detail.metadataNames ++
    word32List detail.classRefs ++ word32List detail.objectRefs

end CodeDetail

end Precompiled.Blob
