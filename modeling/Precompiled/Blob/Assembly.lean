import Precompiled.Blob.Draft
import Precompiled.Blob.Header
import Precompiled.Blob.Section
import Precompiled.Checksum

/-! Laying a draft out as a blob. Every section is first made on its own, since
offsets inside records are relative to the section they point into; only then
are the sections placed one after the other, each at its alignment, followed by
the symbol table and the name pool. Texts are interned in the order in which
the sections mention them. -/
namespace Precompiled.Blob

/-- The byte that fills code: a trap instruction. -/
def codeFill : UInt8 := 0xCC

/-- Texts written so far and where each sequence of texts starts. -/
structure NamePool where
  bytes : Bytes := []
  interned : List (List String × Nat) := []

namespace NamePool

/-- The offset of consecutive texts, written now unless the same sequence was
written before. -/
def intern (parts : List String) : StateM NamePool Nat := do
  let pool ← get
  match pool.interned.lookup parts with
  | some offset => return offset
  | none =>
    let offset := pool.bytes.length
    set { bytes := pool.bytes ++ parts.flatMap nameBytes,
          interned := pool.interned ++ [(parts, offset)] : NamePool }
    return offset

end NamePool

/-- Where pieces of the given sizes start when laid end to end from `start`. -/
def runningOffsets (start : Nat) : List Nat → List Nat
  | [] => []
  | size :: sizes => start :: runningOffsets (start + size) sizes

/-- One piece of code with everything its record has to say. -/
structure PlacedCode where
  draft : CodeDraft
  codeId : Nat
  codeOffset : Nat
  detailOffset : Nat
  metadataStart : Nat

namespace Draft

/-- Bytes per segment; settings that make no sense count as one. -/
def segmentSize (draft : Draft) : Nat :=
  max draft.settings.codeSegmentSize.toInt.toNat 1

/-- The bytes of one piece of code: its id, its instructions, and filling up to
whole segments. -/
def codeChunk (draft : Draft) (codeId : Nat) (code : CodeDraft) : Bytes :=
  alignTo draft.segmentSize codeFill
    (word32 (UInt32.ofNat codeId) ++ List.replicate code.method.codeSize.toNat codeFill)

/-- All code chunks in the order of their ids. -/
def codeChunks (draft : Draft) : List Bytes :=
  draft.codes.mapIdx draft.codeChunk

/-- The segment map bytes of one chunk: how far back its first segment lies,
as far as a byte below `freeSegment` can say. -/
def segmentBytes (draft : Draft) (chunk : Bytes) : Bytes :=
  (List.range (chunk.length / draft.segmentSize)).map fun back => UInt8.ofNat (min back 254)

/-- The detail of one piece of code, measured from its id and not from its
first instruction. -/
def detailOf (code : CodeDraft) : StateM NamePool CodeDetail := do
  let metadataNames ← code.method.metadata.mapM fun descriptor => NamePool.intern [descriptor]
  return {
    codeSize := codeHeaderSize + code.method.codeSize
    entryOffset := codeHeaderSize + code.method.entryOffset
    verifiedEntryOffset := codeHeaderSize + code.method.verifiedEntryOffset
    frameSize := code.method.frameSize
    metadataNames := metadataNames.map Int32.ofNat
    classRefs := code.method.classRefs
    objectRefs := code.method.objectRefs }

/-- Gives every piece of code its offsets and its run of metadata slots. -/
def placeCodes (draft : Draft) (details : List Bytes) : List PlacedCode :=
  let codeOffsets := runningOffsets 0 (draft.codeChunks.map List.length)
  let detailOffsets := runningOffsets 0 (details.map List.length)
  let metadataStarts := runningOffsets 0 (draft.codes.map fun code => code.method.metadata.length)
  draft.codes.mapIdx fun codeId code =>
    { draft := code, codeId,
      codeOffset := codeOffsets.getD codeId 0,
      detailOffset := detailOffsets.getD codeId 0,
      metadataStart := metadataStarts.getD codeId 0 }

/-- The record of a placed piece of code. -/
def recordOf (code : PlacedCode) : StateM NamePool CodeRecord := do
  let method := code.draft.method
  let name ← NamePool.intern [code.draft.holder, method.name, method.signature]
  return {
    nameOffset := Int32.ofNat name
    codeOffset := Int32.ofNat code.codeOffset
    detailOffset := Int32.ofNat code.detailOffset
    metadataStart := Int32.ofNat code.metadataStart
    metadataCount := Int32.ofNat method.metadata.length
    codeId := Int32.ofNat code.codeId }

/-- The code records of the given ids. -/
def recordsOf (placed : List PlacedCode) (codeIds : List Nat) : StateM NamePool (List CodeRecord) :=
  (codeIds.filterMap fun codeId => placed[codeId]?).mapM recordOf

/-- A counted list, or nothing for an empty one. -/
def group (items : List Bytes) : Bytes :=
  if items.isEmpty then [] else word32 (UInt32.ofNat items.length) ++ items.flatten

/-- Where each group starts; empty ones are absent. -/
def groupOffsets (groups : List Bytes) : List Int32 :=
  List.zipWith (fun offset bytes => if bytes.isEmpty then noOffset else Int32.ofNat offset)
    (runningOffsets 0 (groups.map List.length)) groups

/-- The class records, which need to know where each class's lists start. -/
def classRecords (draft : Draft) (methodGroups dependentGroups : List Bytes) : List ClassRecord :=
  let methodOffsets := groupOffsets methodGroups
  let dependentOffsets := groupOffsets dependentGroups
  draft.classes.mapIdx fun classId owner =>
    { gotIndex := Int32.ofNat owner.gotIndex,
      classId := Int32.ofNat classId,
      methodsOffset := methodOffsets.getD classId noOffset,
      dependentsOffset := dependentOffsets.getD classId noOffset,
      fingerprint := owner.fingerprint }

/-- The name offsets of a table of texts. -/
def nameTable (names : List String) : StateM NamePool Bytes := do
  let offsets ← names.mapM fun name => NamePool.intern [name]
  return offsets.flatMap fun offset => signed32 (Int32.ofNat offset)

/-- The sections of a blob, each made on its own. -/
structure Contents where
  details : Bytes
  records : Bytes
  dependents : Bytes
  classes : List ClassRecord
  metaspaceNames : Bytes
  objectNames : Bytes
  stubs : Bytes
  routines : Bytes

/-- Makes every section that mentions texts, in the order of the sections. -/
def contents (draft : Draft) : StateM NamePool Contents := do
  let details := (← draft.codes.mapM detailOf).map CodeDetail.encode
  let placed := draft.placeCodes details
  let methodGroups ← draft.classes.mapM fun owner => do
    return group ((← recordsOf placed owner.methods).map CodeRecord.encode)
  let stubRecords := (← recordsOf placed draft.stubs).map CodeRecord.encode
  let stubOffsets := runningOffsets methodGroups.flatten.length (stubRecords.map List.length)
  let dependentGroups := draft.classes.map fun target => group (target.dependents.map word32)
  let metaspaceNames ← nameTable draft.metaspaceNames
  let objectNames ← nameTable draft.objectNames
  let routines ← nameTable draft.routines
  return {
    details := details.flatten
    records := methodGroups.flatten ++ stubRecords.flatten
    dependents := dependentGroups.flatten
    classes := draft.classRecords methodGroups dependentGroups
    metaspaceNames
    objectNames
    stubs := signed32List (stubOffsets.map Int32.ofNat)
    routines := word32 (UInt32.ofNat draft.routines.length) ++ routines }

/-- A symbol whose name has not been given its place in the pool yet. -/
structure PendingSymbol where
  name : String
  kind : SymbolKind
  offset : Nat
  size : Nat

/-- A blob while its sections are being placed. -/
structure Layout where
  written : Bytes
  symbols : List PendingSymbol := []

/-- Places a section at its alignment, exporting `inner` symbols of places
inside it first. The places are relative to the section. -/
def Layout.place (layout : Layout) (part : Section) (alignment : Nat) (content : Bytes)
    (inner : List PendingSymbol) : Layout :=
  let aligned := alignTo alignment 0 layout.written
  let start := aligned.length
  { written := aligned ++ content
    symbols := layout.symbols ++
      inner.map (fun symbol => { symbol with offset := start + symbol.offset }) ++
      [{ name := part.symbol, kind := .table, offset := start, size := content.length }] }

/-- Every class record is exported under the name of its class. -/
def classSymbols (draft : Draft) : List PendingSymbol :=
  draft.classes.mapIdx fun classId owner =>
    { name := owner.name, kind := .classRecord,
      offset := classId * classRecordSize, size := classRecordSize }

/-- Places all sections behind the header's space and the engine version. -/
def layout (draft : Draft) (contents : Contents) : Layout :=
  let front : Layout :=
    { written := List.replicate headerSize 0 ++ textBytes draft.engineVersion ++ [0] }
  let chunks := draft.codeChunks
  front
    |>.place .settings 8 draft.settings.encode []
    |>.place .code (max draft.segmentSize 8) chunks.flatten []
    |>.place .segments 8 (chunks.flatMap draft.segmentBytes) []
    |>.place .codeDetails 8 contents.details []
    |>.place .codeRecords 8 contents.records []
    |>.place .dependents 8 contents.dependents []
    |>.place .classes 8 (contents.classes.flatMap ClassRecord.encode) draft.classSymbols
    |>.place .metaspaceNames 8 contents.metaspaceNames []
    |>.place .objectNames 8 contents.objectNames []
    |>.place .stubs 8 contents.stubs []
    |>.place .routines 8 contents.routines []

/-- The symbol table of a layout. -/
def symbolEntries (symbols : List PendingSymbol) : StateM NamePool (List SymbolEntry) :=
  symbols.mapM fun symbol => do
    let name ← NamePool.intern [symbol.name]
    return { nameOffset := UInt32.ofNat name, kind := symbol.kind,
             offset := UInt32.ofNat symbol.offset, size := UInt32.ofNat symbol.size }

/-- How many pieces of metadata the code of a draft refers to. -/
def metadataCount (draft : Draft) : Nat :=
  draft.codes.foldr (fun code count => code.method.metadata.length + count) 0

/-- The blob of a draft. -/
def assemble (draft : Draft) : Bytes :=
  let (contents, pool) := draft.contents.run {}
  let layout := draft.layout contents
  let (entries, pool) := (symbolEntries layout.symbols).run pool
  let aligned := alignTo 8 0 layout.written
  let written := aligned ++ entries.flatMap SymbolEntry.encode ++ pool.bytes
  let body := written.drop headerSize
  let header : Header := {
    magic := magicWord
    version := formatVersion
    classCount := UInt32.ofNat draft.classes.length
    slotCount := UInt32.ofNat draft.codes.length
    metaspaceSize := UInt32.ofNat draft.metaspaceNames.length
    metadataSize := UInt32.ofNat draft.metadataCount
    objectSize := UInt32.ofNat draft.objectNames.length
    engineVersionOffset := UInt32.ofNat headerSize
    symbolsOffset := UInt32.ofNat aligned.length
    symbolCount := UInt32.ofNat entries.length
    namesOffset := UInt32.ofNat (aligned.length + entries.length * symbolEntrySize)
    namesSize := UInt32.ofNat pool.bytes.length
    checksum := Checksum.crc32 body }
  header.encode ++ body

end Draft

end Precompiled.Blob
