import Precompiled.Blob.BuildSettings
import Precompiled.Blob.Header
import Precompiled.Blob.Record
import Precompiled.Blob.Section
import Precompiled.Checksum
import Precompiled.Error
import Precompiled.Journal
import Precompiled.Text.Path

/-! A library is a blob that passed the loader. The loader checks the header
before it trusts an offset, the checksum before it looks at what the checksum
covers, and every range before it is used, so that the views below can fail
only on the contents of a section. -/
namespace Precompiled

open Blob

/-- What an exported symbol names: a range of the blob. -/
structure ExportedSymbol where
  kind : SymbolKind
  offset : Nat
  size : Nat
  deriving DecidableEq, Repr

/-- The contents of the sections that views read. -/
structure SectionContents where
  code : Bytes
  segments : Bytes
  classes : Bytes
  codeRecords : Bytes
  codeDetails : Bytes
  dependents : Bytes
  metaspaceNames : Bytes
  objectNames : Bytes
  stubs : Bytes
  routines : Bytes
  deriving DecidableEq, Repr

structure Library where
  name : String
  /-- Number of the library within its session. -/
  id : Nat
  bytes : Bytes
  header : Header
  settings : BuildSettings
  engineVersion : String
  /-- The symbol table in its own order. -/
  symbols : List (String × ExportedSymbol)
  contents : SectionContents
  /-- The name pool. -/
  names : Bytes
  /-- The code lives in a mapping of its own. -/
  mapped : Bool
  /-- Address of the first byte of code. -/
  codeBase : Nat
  /-- The library has not been rejected. -/
  valid : Bool
  deriving DecidableEq, Repr

/-- How a library is to be loaded. -/
structure LoadOptions where
  /-- Compare the stored checksum with the contents. -/
  verifyChecksum : Bool := true
  /-- Copy the code into executable memory. -/
  mapCode : Bool := false
  /-- Where the code comes to lie. -/
  codeBase : Nat := 0
  deriving DecidableEq, Repr

namespace Library

/-! ## Loading -/

/-- The bytes of a range, if it lies inside the data. -/
def range? (data : Bytes) (offset size : Nat) : Except DecodeError Bytes :=
  if offset + size ≤ data.length then .ok ((data.drop offset).take size)
  else .error (.unexpectedEnd offset size)

/-- One entry of the symbol table with its name, its range checked. -/
def namedSymbol (data names : Bytes) (entry : SymbolEntry) :
    Except DecodeError (String × ExportedSymbol) := do
  let _ ← range? data entry.offset.toNat entry.size.toNat
  let name ← Decoder.name.runAt names entry.nameOffset.toNat
  return (name, ⟨entry.kind, entry.offset.toNat, entry.size.toNat⟩)

/-- Reads entries one after the other, each together with its name, so that the
first entry with a fault decides. -/
def readSymbols (data names : Bytes) :
    Nat → Cursor → Except DecodeError (List (String × ExportedSymbol))
  | 0, _ => .ok []
  | count + 1, cursor => do
    let (entry, after) := SymbolEntry.decode cursor
    let symbol ← namedSymbol data names (← entry)
    return symbol :: (← readSymbols data names count after)

/-- The symbol table that the header announces. -/
def symbolTable (data names : Bytes) (header : Header) :
    Except DecodeError (List (String × ExportedSymbol)) := do
  let start := header.symbolsOffset.toNat
  let count := header.symbolCount.toNat
  let _ ← range? data start (count * symbolEntrySize)
  readSymbols data names count (← Cursor.at? data start)

/-- What a name stands for: its last entry in the table. -/
def findSymbol (symbols : List (String × ExportedSymbol)) (name : String) : Option ExportedSymbol :=
  (symbols.reverse.find? fun entry => entry.1 == name).map Prod.snd

/-- The bytes of a required section. -/
def sectionBytes (library : String) (data : Bytes) (symbols : List (String × ExportedSymbol))
    (part : Section) : Except Error Bytes :=
  match findSymbol symbols part.symbol with
  | some ⟨.table, offset, size⟩ => .ok ((data.drop offset).take size)
  | _ => .error (.missingSymbol library part.symbol)

/-- Names the library in a decode failure. -/
def inLibrary (library : String) (outcome : Except DecodeError α) : Except Error α :=
  outcome.mapError (.malformed library)

/-- Accepts or refuses a header on its own. -/
def checkHeader (library : String) (data : Bytes) (verifyChecksum : Bool) (header : Header) :
    Except Error Unit := do
  if header.magic ≠ magicWord then
    throw (.format library (.magic (word64 header.magic)))
  if header.version ≠ formatVersion then
    throw (.format library (.version header.version formatVersion))
  if verifyChecksum then
    let computed := Checksum.crc32 (data.drop headerSize)
    if computed ≠ header.checksum then
      throw (.format library (.checksum computed header.checksum))

/-- Accepts a blob as the library `name`, or says why not. -/
def accept (data : Bytes) (name : String) (id : Nat) (options : LoadOptions) :
    Except Error Library := do
  if data.length < headerSize then
    throw (.format name (.tooShort data.length))
  let header ← inLibrary name (Header.decode.run (Cursor.start data))
  checkHeader name data options.verifyChecksum header
  let engineVersion ← inLibrary name (Decoder.cString.runAt data header.engineVersionOffset.toNat)
  let names ← inLibrary name (range? data header.namesOffset.toNat header.namesSize.toNat)
  let symbols ← inLibrary name (symbolTable data names header)
  let part := sectionBytes name data symbols
  let settingsBytes ← part .settings
  let contents : SectionContents := {
    code := ← part .code
    segments := ← part .segments
    classes := ← part .classes
    codeRecords := ← part .codeRecords
    codeDetails := ← part .codeDetails
    dependents := ← part .dependents
    metaspaceNames := ← part .metaspaceNames
    objectNames := ← part .objectNames
    stubs := ← part .stubs
    routines := ← part .routines }
  let settings ← inLibrary name (BuildSettings.decode.run (Cursor.start settingsBytes))
  return {
    name, id, bytes := data, header, settings, engineVersion, symbols, contents, names,
    mapped := options.mapCode && !contents.code.isEmpty
    codeBase := options.codeBase
    valid := true }

/-- Accepts a blob and reports it. -/
def load (data : Bytes) (name : String) (id : Nat) (options : LoadOptions) :
    Reported (Except Error Library) := do
  let outcome := accept data name id options
  if let .ok library := outcome then
    Reported.note .debug .loading (s!"loaded {library.name} (id {library.id}): " ++
      s!"{library.header.classCount.toNat} classes, " ++
      s!"{library.header.slotCount.toNat} code slots, engine {library.engineVersion}")
  return outcome

/-- Accepts the contents of a file as the library of that name. -/
def loadFile (data : Bytes) (path : String) (id : Nat) (options : LoadOptions) :
    Reported (Except Error Library) :=
  load data (Text.fileName path) id options

/-- Marks a library unusable, and reports it the first time. -/
def invalidate (library : Library) : Reported Library := do
  if library.valid then
    Reported.note .info .loading s!"library {library.name} invalidated"
  return { library with valid := false }

/-! ## Views -/

variable (library : Library)

/-- A read through the blob on behalf of the library. -/
def reading (outcome : Except DecodeError α) : Except Error α :=
  inLibrary library.name outcome

/-- The exported symbol of a name. -/
def symbol (name : String) : Option ExportedSymbol :=
  findSymbol library.symbols name

/-- The class record exported under a name, if the name is one of a class. -/
def findClassRecord (name : String) : Except Error (Option ClassRecord) :=
  match library.symbol name with
  | some ⟨.classRecord, offset, _⟩ =>
    (library.reading (ClassRecord.decode.runAt library.bytes offset)).map some
  | _ => .ok none

/-- The class record with a number. -/
def classRecord (classId : Nat) : Except Error ClassRecord :=
  library.reading (ClassRecord.decode.runAt library.contents.classes (classId * classRecordSize))

/-- A list that must not have negative entries, as natural numbers. -/
def nonNegative : List Int32 → Except DecodeError (List Nat)
  | [] => .ok []
  | value :: rest =>
    if value < 0 then .error (.invalidOffset value.toInt)
    else (nonNegative rest).map (value.toInt.toNat :: ·)

/-- Code records behind their count. The count is not compared with what
follows: the records themselves run out. -/
def countedRecords : Decoder (List CodeRecord) := do
  let count ← Decoder.int32
  if count < 0 then Decoder.fail (.invalidOffset count.toInt)
  else CodeRecord.decode.times count.toInt.toNat

/-- The records of the code compiled for a class. -/
def methodsOf (owner : ClassRecord) : Except Error (List CodeRecord) :=
  if owner.methodsOffset = noOffset then .ok []
  else library.reading (countedRecords.runAtSigned library.contents.codeRecords owner.methodsOffset)

/-- The ids of the code that depends on the shape of a class. -/
def dependentsOf (target : ClassRecord) : Except Error (List Nat) :=
  if target.dependentsOffset = noOffset then .ok []
  else library.reading do
    nonNegative
      (← Decoder.int32List.runAtSigned library.contents.dependents target.dependentsOffset)

/-- The detail of a piece of code. -/
def detailOf (record : CodeRecord) : Except Error CodeDetail :=
  library.reading (CodeDetail.decode.runAtSigned library.contents.codeDetails record.detailOffset)

/-- Three consecutive names of the pool. -/
def decodeMethodName : Decoder MethodName := do
  let holder ← Decoder.name
  let name ← Decoder.name
  let signature ← Decoder.name
  return { holder, name, signature }

/-- The symbolic name of a piece of code. -/
def methodName (record : CodeRecord) : Except Error MethodName :=
  library.reading (decodeMethodName.runAtSigned library.names record.nameOffset)

/-- The records of the stubs. -/
def stubRecords : Except Error (List CodeRecord) :=
  library.reading do
    let offsets ← Decoder.int32List.run (Cursor.start library.contents.stubs)
    offsets.mapM fun offset => CodeRecord.decode.runAtSigned library.contents.codeRecords offset

/-- The code id in front of the code at an offset. -/
def codeIdAt (offset : Nat) : Except Error Int32 :=
  library.reading (Decoder.int32.runAt library.contents.code offset)

/-- The text at an offset of the name pool. -/
def poolName (offset : Int32) : Except Error String :=
  library.reading (Decoder.name.runAtSigned library.names offset)

/-- The text that a table of name offsets holds at an index. -/
def indexedName (table : Bytes) (index : Nat) : Except Error String := do
  library.poolName (← library.reading (Decoder.int32.runAt table (index * 4)))

/-- The class that a metaspace slot stands for. -/
def metaspaceName (index : Nat) : Except Error String :=
  library.indexedName library.contents.metaspaceNames index

/-- The descriptor of a heap-object slot. -/
def objectName (index : Nat) : Except Error String :=
  library.indexedName library.contents.objectNames index

/-- The engine's routines that the code calls. -/
def routines : Except Error (List String) := do
  let offsets ← library.reading (Decoder.int32List.run (Cursor.start library.contents.routines))
  offsets.mapM library.poolName

/-- Size of the code section. -/
def codeSize : Nat :=
  library.contents.code.length

end Library

end Precompiled
