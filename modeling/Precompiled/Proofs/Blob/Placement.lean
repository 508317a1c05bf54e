import Precompiled.Proofs.Blob.Contents

/-! Where the assembler puts things. Placing a section never touches what was
placed before, so at the end every section stands in the blob as it was made,
and every symbol leads to the section that exported it. Behind the sections
follow the symbol table and the name pool. -/
namespace Precompiled.Blob.Draft

open NamePool

/-! ## Sections -/

/-- A section that is to be placed, with the symbols of places inside it. -/
structure Placement where
  part : Section
  alignment : Nat
  content : Bytes
  inner : List PendingSymbol

namespace Placement

/-- The symbol of the section itself, once it starts somewhere. -/
def symbolAt (item : Placement) (start : Nat) : PendingSymbol where
  name := item.part.symbol
  kind := .table
  offset := start
  size := item.content.length

/-- The section stands in `written`, behind the header, and `symbol` is one of
those it exports from there. -/
def Exports (item : Placement) (written : Bytes) (symbol : PendingSymbol) : Prop :=
  ∃ start, headerSize ≤ start ∧ Holds written start item.content ∧
    (symbol = item.symbolAt start ∨
      ∃ inner ∈ item.inner, symbol = { inner with offset := start + inner.offset })

end Placement

theorem Placement.Exports.extend {item : Placement} (exported : item.Exports written symbol)
    (grown : written <+: longer) : item.Exports longer symbol := by
  obtain ⟨start, behind, holds, listed⟩ := exported
  exact ⟨start, behind, holds.extend grown, listed⟩

/-- The layout consists of the sections placed so far, and its symbols are
exactly those that they export. -/
structure Layout.Consists (layout : Layout) (placed : List Placement) : Prop where
  behind : headerSize ≤ layout.written.length
  exported : ∀ item ∈ placed, ∀ expected ∈ item.symbolAt 0 :: item.inner,
    ∃ symbol ∈ layout.symbols, symbol.name = expected.name ∧ symbol.kind = expected.kind
  listed : ∀ symbol ∈ layout.symbols, ∃ item ∈ placed, item.Exports layout.written symbol

/-- Places a section the way the assembler does. -/
def Layout.add (layout : Layout) (item : Placement) : Layout :=
  layout.place item.part item.alignment item.content item.inner

theorem alignTo_grows (alignment : Nat) (fill : UInt8) (written : Bytes) :
    written <+: alignTo alignment fill written :=
  List.prefix_append _ _

theorem Layout.add_grows (layout : Layout) (item : Placement) :
    layout.written <+: (layout.add item).written :=
  (alignTo_grows item.alignment 0 layout.written).trans (List.prefix_append _ _)

theorem Layout.addAll_grows (items : List Placement) (layout : Layout) :
    layout.written <+: (items.foldl Layout.add layout).written := by
  induction items generalizing layout with
  | nil => exact List.prefix_rfl
  | cons item rest ih => exact (layout.add_grows item).trans (ih (layout.add item))

theorem Layout.Consists.add {layout : Layout} (consists : layout.Consists placed)
    (item : Placement) : (layout.add item).Consists (placed ++ [item]) := by
  have aligned := alignTo_grows item.alignment 0 layout.written
  have grown := layout.add_grows item
  have start : headerSize ≤ (alignTo item.alignment 0 layout.written).length :=
    Nat.le_trans consists.behind aligned.length_le
  have placed : Holds (layout.add item).written
      (alignTo item.alignment 0 layout.written).length item.content :=
    ⟨alignTo item.alignment 0 layout.written, [], by simp [Layout.add, Layout.place], rfl⟩
  constructor
  · exact Nat.le_trans consists.behind grown.length_le
  · intro other member expected asked
    rcases List.mem_append.mp member with earlier | last
    · obtain ⟨symbol, among, named⟩ := consists.exported other earlier expected asked
      exact ⟨symbol, by simp [Layout.add, Layout.place, among], named⟩
    · obtain rfl := List.mem_singleton.mp last
      rcases List.mem_cons.mp asked with rfl | inner
      · refine ⟨other.symbolAt (alignTo other.alignment 0 layout.written).length, ?_, rfl, rfl⟩
        simp [Layout.add, Layout.place, Placement.symbolAt]
      · refine ⟨{ expected with
          offset := (alignTo other.alignment 0 layout.written).length + expected.offset },
          ?_, rfl, rfl⟩
        refine List.mem_append_left _ (List.mem_append_right _ ?_)
        exact List.mem_map.mpr ⟨expected, inner, rfl⟩
  · intro symbol member
    simp only [Layout.add, Layout.place, List.append_assoc, List.mem_append, List.mem_map,
      List.mem_singleton] at member
    rcases member with earlier | ⟨inner, among, rfl⟩ | rfl
    · obtain ⟨owner, among, exported⟩ := consists.listed symbol earlier
      exact ⟨owner, by simp [among], exported.extend grown⟩
    · exact ⟨item, by simp, _, start, placed, .inr ⟨inner, among, rfl⟩⟩
    · exact ⟨item, by simp, _, start, placed, .inl rfl⟩

theorem Layout.Consists.addAll {layout : Layout} (consists : layout.Consists placed)
    (items : List Placement) : (items.foldl Layout.add layout).Consists (placed ++ items) := by
  induction items generalizing layout placed with
  | nil => simpa using consists
  | cons item rest ih => simpa using ih (consists.add item)

variable (draft : Draft)

/-- The blob before any section was placed: room for the header and the version
of the engine. -/
def front : Layout where
  written := List.replicate headerSize 0 ++ textBytes draft.engineVersion ++ [0]

/-- The sections in the order in which they are placed. -/
def placements (contents : Contents) : List Placement :=
  [⟨.settings, 8, draft.settings.encode, []⟩,
   ⟨.code, max draft.segmentSize 8, draft.codeChunks.flatten, []⟩,
   ⟨.segments, 8, draft.codeChunks.flatMap draft.segmentBytes, []⟩,
   ⟨.codeDetails, 8, contents.details, []⟩,
   ⟨.codeRecords, 8, contents.records, []⟩,
   ⟨.dependents, 8, contents.dependents, []⟩,
   ⟨.classes, 8, contents.classes.flatMap ClassRecord.encode, draft.classSymbols⟩,
   ⟨.metaspaceNames, 8, contents.metaspaceNames, []⟩,
   ⟨.objectNames, 8, contents.objectNames, []⟩,
   ⟨.stubs, 8, contents.stubs, []⟩,
   ⟨.routines, 8, contents.routines, []⟩]

theorem layout_consists (contents : Contents) :
    (draft.layout contents).Consists (draft.placements contents) := by
  have front : draft.front.Consists [] := {
    behind := by simp [Draft.front]
    exported := by simp
    listed := by simp [Draft.front] }
  exact front.addAll (draft.placements contents)

/-! ## The finished blob -/

/-- A symbol whose name stands where the pool has it. -/
def entryIn (pool : NamePool) (symbol : PendingSymbol) : SymbolEntry where
  nameOffset := UInt32.ofNat (pool.offsetOf [symbol.name])
  kind := symbol.kind
  offset := UInt32.ofNat symbol.offset
  size := UInt32.ofNat symbol.size

theorem interns_symbolEntries (symbols : List PendingSymbol) :
    Interns (symbolEntries symbols) (symbols.flatMap fun symbol => [[symbol.name]]) fun pool =>
      symbols.map fun symbol => entryIn pool symbol :=
  Interns.mapM (fun symbol : PendingSymbol =>
    (interns_intern [symbol.name] (by simp [longestSequence])).map fun name => {
      nameOffset := UInt32.ofNat name
      kind := symbol.kind
      offset := UInt32.ofNat symbol.offset
      size := UInt32.ofNat symbol.size : SymbolEntry }) symbols

/-- The pool behind all sections and the symbol table. -/
def pool : NamePool :=
  let (contents, before) := draft.contents.run {}
  ((symbolEntries (draft.layout contents).symbols).run before).2

/-- The sections as they stand in the blob. -/
def finalContents : Contents :=
  draft.contentsIn draft.pool

/-- All sections in their places. -/
def finalLayout : Layout :=
  draft.layout draft.finalContents

/-- The symbol table as it stands in the blob. -/
def finalEntries : List SymbolEntry :=
  draft.finalLayout.symbols.map (entryIn draft.pool)

/-- The offset of the symbol table. -/
def symbolsStart : Nat :=
  (alignTo 8 0 draft.finalLayout.written).length

/-- The offset of the name pool. -/
def namesStart : Nat :=
  draft.symbolsStart + draft.finalEntries.length * symbolEntrySize

/-- The blob with zeros in the place of its header. -/
def written : Bytes :=
  alignTo 8 0 draft.finalLayout.written ++ draft.finalEntries.flatMap SymbolEntry.encode ++
    draft.pool.bytes

/-- The header of the blob. -/
def finalHeader : Header where
  magic := magicWord
  version := formatVersion
  classCount := UInt32.ofNat draft.classes.length
  slotCount := UInt32.ofNat draft.codes.length
  metaspaceSize := UInt32.ofNat draft.metaspaceNames.length
  metadataSize := UInt32.ofNat draft.metadataCount
  objectSize := UInt32.ofNat draft.objectNames.length
  engineVersionOffset := UInt32.ofNat headerSize
  symbolsOffset := UInt32.ofNat draft.symbolsStart
  symbolCount := UInt32.ofNat draft.finalEntries.length
  namesOffset := UInt32.ofNat draft.namesStart
  namesSize := UInt32.ofNat draft.pool.bytes.length
  checksum := Checksum.crc32 (draft.written.drop headerSize)

/-- The pool of the blob is right about every text it was asked for, and with
its offsets the assembler's computations are known. -/
structure PoolFacts : Prop where
  sound : draft.pool.Sound
  knowsTexts : ∀ parts ∈ draft.texts, draft.pool.Knows parts
  knowsSymbols : ∀ symbol ∈ draft.finalLayout.symbols, draft.pool.Knows [symbol.name]
  ran : ∃ before, draft.contents.run {} = (draft.finalContents, before) ∧
    (symbolEntries draft.finalLayout.symbols).run before = (draft.finalEntries, draft.pool)

theorem poolFacts : draft.PoolFacts := by
  obtain ⟨contents, before, ran, soundBefore, -, known, value⟩ :=
    draft.interns_contents {} Sound.empty
  obtain ⟨entries, after, ranOn, sound, grown, knownOn, valueOn⟩ :=
    interns_symbolEntries (draft.layout contents).symbols before soundBefore
  have final : draft.pool = after := by
    simp only [pool, ran, ranOn]
  subst final
  have made : contents = draft.finalContents := value draft.pool grown
  subst made
  have table : entries = draft.finalEntries := valueOn draft.pool (.refl draft.pool)
  rw [table] at ranOn
  constructor
  · exact sound
  · intro parts member
    exact grown.knows (known parts member)
  · intro symbol member
    exact knownOn [symbol.name] (List.mem_flatMap_of_mem member (by simp))
  · exact ⟨before, ran, ranOn⟩

theorem assemble_eq : draft.assemble = draft.finalHeader.encode ++ draft.written.drop headerSize := by
  obtain ⟨before, ran, ranOn⟩ := draft.poolFacts.ran
  have ranOn' : (symbolEntries (draft.layout draft.finalContents).symbols).run before =
    (draft.finalEntries, draft.pool) := ranOn
  simp only [assemble, ran, ranOn']
  rfl

end Precompiled.Blob.Draft
