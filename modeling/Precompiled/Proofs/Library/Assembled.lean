import Precompiled.Proofs.Blob.Placement
import Precompiled.Proofs.Library.Acceptance

/-! Loading an assembled blob. As long as the words of the header can say where
the tables lie, whatever the loader accepts is what the assembler laid out:
header, settings, name pool and the bytes of every section. -/
namespace Precompiled.Blob.Draft

open NamePool Library Outcome

variable (draft : Draft) {symbol : PendingSymbol} {item : Placement} {name : String} {id : Nat}
  {options : LoadOptions} {library : Library} {symbols : List (String × ExportedSymbol)}

/-- The bytes of a section as they stand in the blob. -/
def sectionContent : Section → Bytes
  | .settings => draft.settings.encode
  | .code => draft.codeChunks.flatten
  | .segments => draft.codeChunks.flatMap draft.segmentBytes
  | .classes => draft.finalContents.classes.flatMap ClassRecord.encode
  | .codeRecords => draft.finalContents.records
  | .codeDetails => draft.finalContents.details
  | .dependents => draft.finalContents.dependents
  | .metaspaceNames => draft.finalContents.metaspaceNames
  | .objectNames => draft.finalContents.objectNames
  | .stubs => draft.finalContents.stubs
  | .routines => draft.finalContents.routines

theorem placement_exists (part : Section) :
    ∃ item ∈ draft.placements draft.finalContents, item.part = part := by
  cases part <;> simp [placements]

theorem placement_content (member : item ∈ draft.placements draft.finalContents) :
    item.content = draft.sectionContent item.part ∧
      ∀ symbol ∈ item.inner, item.part = .classes ∧ symbol ∈ draft.classSymbols := by
  simp only [placements, List.mem_cons, List.not_mem_nil, or_false] at member
  rcases member with rfl | rfl | rfl | rfl | rfl | rfl | rfl | rfl | rfl | rfl | rfl <;>
    simp [sectionContent]

/-! ## What the symbols of a blob lead to -/

theorem classRecords_length (methodGroups dependentGroups : List Bytes) :
    (draft.classRecords methodGroups dependentGroups).length = draft.classes.length := by
  simp [classRecords]

theorem records_length (records : List ClassRecord) :
    (records.flatMap ClassRecord.encode).length = records.length * classRecordSize := by
  simp [List.length_flatMap, ClassRecord.encode_length, List.map_const']

theorem classes_length :
    (draft.sectionContent .classes).length = draft.classes.length * classRecordSize := by
  rw [sectionContent, records_length]
  exact congrArg (· * classRecordSize) (draft.classRecords_length _ _)

/-- A symbol leads to a section, or to one record of the class section. -/
inductive Leads (symbol : PendingSymbol) : Prop where
  | part (part : Section) (start : Nat) (behind : headerSize ≤ start)
      (holds : Holds draft.finalLayout.written start (draft.sectionContent part))
      (same : symbol = ⟨part.symbol, .table, start, (draft.sectionContent part).length⟩)
  | record (classId : Nat) (owner : ClassDraft) (start : Nat) (behind : headerSize ≤ start)
      (known : draft.classes[classId]? = some owner)
      (holds : Holds draft.finalLayout.written start (draft.sectionContent .classes))
      (same : symbol =
        ⟨owner.name, .classRecord, start + classId * classRecordSize, classRecordSize⟩)

theorem leads (member : symbol ∈ draft.finalLayout.symbols) : draft.Leads symbol := by
  obtain ⟨item, among, start, behind, holds, listed⟩ :=
    (draft.layout_consists draft.finalContents).listed symbol member
  obtain ⟨content, inner⟩ := draft.placement_content among
  rw [content] at holds
  rcases listed with rfl | ⟨place, inside, rfl⟩
  · refine .part item.part start behind holds ?_
    rw [Placement.symbolAt, content]
  · obtain ⟨part, known⟩ := inner place inside
    rw [part] at holds
    obtain ⟨classId, bound, rfl⟩ := List.mem_mapIdx.mp known
    exact .record classId draft.classes[classId] start behind (by simp [bound]) holds rfl

theorem part_symbol (part : Section) :
    ∃ symbol ∈ draft.finalLayout.symbols, symbol.name = part.symbol ∧ symbol.kind = .table := by
  obtain ⟨item, among, rfl⟩ := draft.placement_exists part
  exact (draft.layout_consists draft.finalContents).exported item among (item.symbolAt 0) (by simp)

theorem class_symbol (known : owner ∈ draft.classes) :
    ∃ symbol ∈ draft.finalLayout.symbols, symbol.name = owner.name ∧ symbol.kind = .classRecord := by
  obtain ⟨classId, inside, rfl⟩ := List.getElem_of_mem known
  have placed : (⟨.classes, 8, draft.finalContents.classes.flatMap ClassRecord.encode,
      draft.classSymbols⟩ : Placement) ∈ draft.placements draft.finalContents := by simp [placements]
  have asked : (⟨draft.classes[classId].name, .classRecord, classId * classRecordSize,
      classRecordSize⟩ : PendingSymbol) ∈ draft.classSymbols :=
    List.mem_mapIdx.mpr ⟨classId, inside, rfl⟩
  exact (draft.layout_consists draft.finalContents).exported _ placed _ (List.mem_cons_of_mem _ asked)

theorem Leads.bound {draft : Draft} (leads : draft.Leads symbol) :
    symbol.offset + symbol.size ≤ draft.finalLayout.written.length := by
  cases leads with
  | part part start behind holds same =>
    subst same
    exact holds.bound
  | record classId owner start behind known holds same =>
    subst same
    have inside := (List.getElem?_eq_some_iff.mp known).1
    have room := Nat.mul_le_mul_right classRecordSize (Nat.succ_le_of_lt inside)
    have bound := holds.bound
    rw [classes_length] at bound
    rw [Nat.succ_mul] at room
    change start + classId * classRecordSize + classRecordSize ≤ _
    omega

/-! ## Places in the blob -/

theorem layout_written : headerSize ≤ draft.finalLayout.written.length :=
  (draft.layout_consists draft.finalContents).behind

theorem symbolsStart_ge : draft.finalLayout.written.length ≤ draft.symbolsStart :=
  (alignTo_grows 8 0 draft.finalLayout.written).length_le

theorem entries_length (entries : List SymbolEntry) :
    (entries.flatMap SymbolEntry.encode).length = entries.length * symbolEntrySize := by
  simp [List.length_flatMap, SymbolEntry.encode_length, List.map_const']

theorem written_length : draft.written.length = draft.namesStart + draft.pool.bytes.length := by
  rw [written, List.length_append, List.length_append, entries_length, namesStart, symbolsStart]

theorem assemble_length : draft.assemble.length = draft.namesStart + draft.pool.bytes.length := by
  have behind := draft.layout_written
  have front := draft.symbolsStart_ge
  rw [assemble_eq, List.length_append, Header.encode_length, List.length_drop, written_length,
    namesStart]
  omega

/-- What stands behind the space of the header is in the blob as it was
written. -/
theorem holds_assemble (holds : Holds draft.written offset content) (behind : headerSize ≤ offset) :
    Holds draft.assemble offset content := by
  obtain ⟨before, after, split, rfl⟩ := holds
  refine ⟨draft.finalHeader.encode ++ before.drop headerSize, after, ?_, ?_⟩
  · rw [assemble_eq, split, List.append_assoc before, List.drop_append_of_le_length behind]
    simp
  · rw [List.length_append, Header.encode_length, List.length_drop]
    omega

theorem layout_grows : draft.finalLayout.written <+: draft.written := by
  rw [written, List.append_assoc]
  exact (alignTo_grows 8 0 draft.finalLayout.written).trans (List.prefix_append _ _)

theorem holds_part (holds : Holds draft.finalLayout.written offset content)
    (behind : headerSize ≤ offset) : Holds draft.assemble offset content :=
  draft.holds_assemble (holds.extend draft.layout_grows) behind

theorem holds_entries : Holds draft.assemble draft.symbolsStart
    (draft.finalEntries.flatMap SymbolEntry.encode) :=
  draft.holds_assemble ⟨_, _, rfl, rfl⟩ (Nat.le_trans draft.layout_written draft.symbolsStart_ge)

theorem holds_names : Holds draft.assemble draft.namesStart draft.pool.bytes := by
  refine draft.holds_assemble ⟨_, [], (List.append_nil _).symm, ?_⟩ ?_
  · rw [List.length_append, entries_length, namesStart, symbolsStart]
  · have front := draft.symbolsStart_ge
    have behind := draft.layout_written
    rw [namesStart]
    omega

theorem holds_version :
    Holds draft.assemble headerSize (textBytes draft.engineVersion ++ [0]) := by
  refine draft.holds_part ?_ (Nat.le_refl _)
  have front : Holds draft.front.written headerSize (textBytes draft.engineVersion ++ [0]) :=
    ⟨List.replicate headerSize 0, [], by simp [Draft.front], by simp⟩
  exact front.extend (Layout.addAll_grows (draft.placements draft.finalContents) draft.front)

/-! ## Header and pool -/

/-- The words of the header can say where the tables lie. -/
structure Addressable : Prop where
  tables : draft.namesStart < 2 ^ 32
  names : draft.pool.bytes.length < 2 ^ 32

theorem header_reads :
    Header.decode.run (Cursor.start draft.assemble) = .ok draft.finalHeader := by
  rw [assemble_eq]
  exact draft.finalHeader.reads_encode.run_start _

theorem checksum_agrees :
    Checksum.crc32 (draft.assemble.drop headerSize) = draft.finalHeader.checksum := by
  rw [assemble_eq, List.drop_left' (Header.encode_length _), finalHeader]

theorem word_value (small : value < 2 ^ 32) : (UInt32.ofNat value).toNat = value := by
  rw [UInt32.toNat_ofNat', Nat.mod_eq_of_lt small]

variable {draft}

theorem version_reads : Decoder.cString.runAt draft.assemble
    draft.finalHeader.engineVersionOffset.toNat = .ok (beforeZero draft.engineVersion) := by
  obtain ⟨after, cursor⟩ := draft.holds_version.cursor
  have place : draft.finalHeader.engineVersionOffset.toNat = headerSize := rfl
  rw [place, Decoder.runAt, cursor]
  exact Decoder.reads_cString _ _ _

theorem names_range (addressable : draft.Addressable) :
    range? draft.assemble draft.finalHeader.namesOffset.toNat draft.finalHeader.namesSize.toNat =
      .ok draft.pool.bytes := by
  have place : draft.finalHeader.namesOffset.toNat = draft.namesStart :=
    word_value addressable.tables
  have size : draft.finalHeader.namesSize.toNat = draft.pool.bytes.length :=
    word_value addressable.names
  rw [place, size, range_ok]
  exact ⟨draft.holds_names.bound, draft.holds_names.slice⟩

theorem symbolTable_eq (addressable : draft.Addressable) :
    symbolTable draft.assemble draft.pool.bytes draft.finalHeader =
      draft.finalEntries.mapM (namedSymbol draft.assemble draft.pool.bytes) := by
  have tables := addressable.tables
  have bound := draft.holds_entries.bound
  rw [entries_length] at bound
  have positive : 0 < symbolEntrySize := by decide
  have few := Nat.le_mul_of_pos_right draft.finalEntries.length positive
  rw [namesStart] at tables
  have place : draft.finalHeader.symbolsOffset.toNat = draft.symbolsStart := word_value (by omega)
  have count : draft.finalHeader.symbolCount.toNat = draft.finalEntries.length :=
    word_value (by omega)
  obtain ⟨after, cursor⟩ := draft.holds_entries.cursor
  simp only [symbolTable, place, count, cursor, range?, bound, if_true, ok_bind]
  rw [readSymbols_entries]

/-! ## One symbol -/

theorem offsetOf_le (known : draft.pool.Knows parts) :
    draft.pool.offsetOf parts ≤ draft.pool.bytes.length := by
  have bound := (draft.poolFacts.sound.holds known).bound
  omega

/-- A text of the pool is read back if its count could announce it. -/
theorem pool_reads (known : draft.pool.Knows [text])
    (short : (textBytes text).length ≤ maxNameBytes) :
    Decoder.name.runAt draft.pool.bytes (draft.pool.offsetOf [text]) = .ok text := by
  have holds := draft.poolFacts.sound.holds known
  rw [List.flatMap_singleton] at holds
  exact holds.runAt (Decoder.reads_name short)

/-- What a pending symbol becomes in the table of the library. -/
def exported (symbol : PendingSymbol) : ExportedSymbol where
  kind := symbol.kind
  offset := symbol.offset
  size := symbol.size

theorem namedSymbol_entry (addressable : draft.Addressable)
    (member : symbol ∈ draft.finalLayout.symbols) :
    namedSymbol draft.assemble draft.pool.bytes (entryIn draft.pool symbol) =
      (Decoder.name.runAt draft.pool.bytes (draft.pool.offsetOf [symbol.name])).map
        fun name => (name, exported symbol) := by
  have inside := (draft.leads member).bound
  have tables := addressable.tables
  have front := draft.symbolsStart_ge
  have length := draft.assemble_length
  have pooled := offsetOf_le (draft.poolFacts.knowsSymbols symbol member)
  have names := addressable.names
  rw [namesStart] at tables length
  have place : (entryIn draft.pool symbol).offset.toNat = symbol.offset := word_value (by omega)
  have size : (entryIn draft.pool symbol).size.toNat = symbol.size := word_value (by omega)
  have name : (entryIn draft.pool symbol).nameOffset.toNat = draft.pool.offsetOf [symbol.name] :=
    word_value (by omega)
  have room : symbol.offset + symbol.size ≤ draft.assemble.length := by omega
  simp only [namedSymbol, range?, place, size, name, room, if_true]
  rcases Decoder.name.runAt draft.pool.bytes (draft.pool.offsetOf [symbol.name]) with _ | text
  · rfl
  · rfl

/-! ## Sections through their symbols -/

/-- A text that the 16-bit count in front of it can announce. -/
def Short (text : String) : Prop :=
  (textBytes text).length ≤ maxNameBytes

instance (text : String) : Decidable (Short text) :=
  inferInstanceAs (Decidable ((textBytes text).length ≤ maxNameBytes))

theorem symbol_injective {first second : Section} (same : first.symbol = second.symbol) :
    first = second := by
  cases first <;> cases second <;> first | rfl | simp [Section.symbol] at same

theorem symbol_short (part : Section) : Short part.symbol := by
  cases part <;> (unfold Short Section.symbol; decide +kernel)

/-- An entry of a symbol table together with the symbol it was made from. -/
def Denotes (draft : Draft) (entry : String × ExportedSymbol) : Prop :=
  ∃ symbol ∈ draft.finalLayout.symbols,
    Decoder.name.runAt draft.pool.bytes (draft.pool.offsetOf [symbol.name]) = .ok entry.1 ∧
      entry.2 = exported symbol

theorem Leads.name_of_part {draft : Draft} {part : Section} {start : Nat}
    (member : symbol ∈ draft.finalLayout.symbols)
    (same : symbol = ⟨part.symbol, .table, start, (draft.sectionContent part).length⟩)
    (read : Decoder.name.runAt draft.pool.bytes (draft.pool.offsetOf [symbol.name]) = .ok text) :
    text = part.symbol := by
  have known := draft.poolFacts.knowsSymbols symbol member
  rw [same] at known read
  exact (Except.ok.inj ((pool_reads known (symbol_short part)).symm.trans read)).symm

/-- Whatever section symbol the loader follows, it finds that section. -/
theorem exported_content {symbols : List (String × ExportedSymbol)} {part : Section}
    (denoted : ∀ entry ∈ symbols, draft.Denotes entry)
    (found : Exported draft.assemble symbols part content) :
    content = draft.sectionContent part := by
  obtain ⟨offset, size, found, rfl⟩ := found
  obtain ⟨symbol, member, read, same⟩ := denoted _ (findSymbol_mem found)
  cases draft.leads member with
  | part other start behind holds form =>
    obtain rfl := symbol_injective (Leads.name_of_part member form read)
    rw [form] at same
    obtain ⟨-, rfl, rfl⟩ := ExportedSymbol.mk.inj same
    exact (draft.holds_part holds behind).slice
  | record classId owner start behind known holds form =>
    rw [form] at same
    cases (ExportedSymbol.mk.inj same).1

/-- The library says what the draft was made of. -/
structure Loaded (draft : Draft) (library : Library) : Prop where
  header : library.header = draft.finalHeader
  settings : library.settings = draft.settings
  engineVersion : library.engineVersion = beforeZero draft.engineVersion
  names : library.names = draft.pool.bytes
  bytes : library.bytes = draft.assemble
  valid : library.valid = true
  part : ∀ part content, library.part? part = some content → content = draft.sectionContent part
  denoted : ∀ entry ∈ library.symbols, draft.Denotes entry

theorem denoted_of_mapM (addressable : draft.Addressable)
    (read : draft.finalEntries.mapM (namedSymbol draft.assemble draft.pool.bytes) = .ok symbols) :
    ∀ entry ∈ symbols, draft.Denotes entry := by
  intro entry member
  obtain ⟨source, among, named⟩ := mem_of_mapM_ok read member
  obtain ⟨symbol, pending, rfl⟩ := List.mem_map.mp among
  rw [namedSymbol_entry addressable pending] at named
  obtain ⟨text, found, rfl⟩ := map_ok.mp named
  exact ⟨symbol, pending, found, rfl⟩

/-- Whatever is accepted of an assembled blob is what was assembled. -/
theorem loaded_of_accepted (addressable : draft.Addressable)
    (accepted : accept draft.assemble name id options = .ok library) : draft.Loaded library := by
  have facts := accept_ok.mp accepted
  have header : library.header = draft.finalHeader :=
    Except.ok.inj (facts.header.symm.trans draft.header_reads)
  have engineVersion := facts.engineVersion
  have names := facts.names
  have symbols := facts.symbols
  rw [header, version_reads] at engineVersion
  rw [header, names_range addressable] at names
  have pooled := Except.ok.inj names
  rw [header, ← pooled, symbolTable_eq addressable] at symbols
  have denoted := denoted_of_mapM addressable symbols
  obtain ⟨content, found, settings⟩ := facts.settings
  have read := draft.settings.reads_encode.run_start []
  rw [exported_content denoted found, sectionContent, ← List.append_nil draft.settings.encode, read]
    at settings
  exact {
    header
    settings := (Except.ok.inj settings).symm
    engineVersion := (Except.ok.inj engineVersion).symm
    names := pooled.symm
    bytes := facts.bytes
    valid := facts.valid
    part := fun part content kept => exported_content denoted (facts.parts part content kept)
    denoted }

/-! ## Blobs that are accepted -/

/-- All offsets of the blob are non-negative as signed words. -/
structure Fits (draft : Draft) : Prop where
  /-- Everything before the name pool starts, and so does the pool itself. -/
  tables : draft.namesStart < 2 ^ 31
  /-- Every text starts so early in the pool. -/
  names : ∀ parts offset, draft.pool.interned.lookup parts = some offset → offset < 2 ^ 31

theorem fits_of_length (small : draft.written.length < 2 ^ 31) : draft.Fits := by
  rw [written_length] at small
  constructor
  · omega
  · intro parts offset found
    have bound := (draft.poolFacts.sound.held parts offset found).bound
    omega

theorem Fits.addressable (fits : draft.Fits) : draft.Addressable where
  tables := Nat.lt_trans fits.tables (by decide)
  names := Nat.lt_of_lt_of_le (draft.poolFacts.sound.ended _ fits.names) (by decide)

theorem Fits.offset (fits : draft.Fits) (known : draft.pool.Knows parts) :
    draft.pool.offsetOf parts < 2 ^ 31 := by
  obtain ⟨offset, found⟩ := known
  rw [(Extends.refl draft.pool).offsetOf found]
  exact fits.names parts offset found

/-- The names of the classes can be written whole, and none of them takes the
place of a section. -/
structure ClassNames (draft : Draft) : Prop where
  short : ∀ owner ∈ draft.classes, Short owner.name
  free : ∀ owner ∈ draft.classes, ∀ part : Section, owner.name ≠ part.symbol

/-- The library that the loader makes of the blob. -/
def libraryNamed (draft : Draft) (name : String) (id : Nat) (options : LoadOptions) : Library where
  name := name
  id := id
  bytes := draft.assemble
  header := draft.finalHeader
  settings := draft.settings
  engineVersion := beforeZero draft.engineVersion
  symbols := draft.finalLayout.symbols.map fun symbol => (symbol.name, exported symbol)
  contents := {
    code := draft.sectionContent .code
    segments := draft.sectionContent .segments
    classes := draft.sectionContent .classes
    codeRecords := draft.sectionContent .codeRecords
    codeDetails := draft.sectionContent .codeDetails
    dependents := draft.sectionContent .dependents
    metaspaceNames := draft.sectionContent .metaspaceNames
    objectNames := draft.sectionContent .objectNames
    stubs := draft.sectionContent .stubs
    routines := draft.sectionContent .routines }
  names := draft.pool.bytes
  mapped := options.mapCode && !(draft.sectionContent .code).isEmpty
  codeBase := options.codeBase
  valid := true

theorem library_part (found : (draft.libraryNamed name id options).part? part = some content) :
    content = draft.sectionContent part := by
  cases part with
  | settings => cases found
  | _ => exact (Option.some.inj found).symm

/-- A symbol's name is short if it is that of a section or of a class with a
short name. -/
theorem symbol_name_short (names : draft.ClassNames) (member : symbol ∈ draft.finalLayout.symbols) :
    Short symbol.name := by
  cases draft.leads member with
  | part part start behind holds same =>
    rw [same]
    exact symbol_short part
  | record classId owner start behind known holds same =>
    rw [same]
    exact names.short owner (List.mem_of_getElem? known)

theorem symbols_read (addressable : draft.Addressable) (names : draft.ClassNames) :
    draft.finalEntries.mapM (namedSymbol draft.assemble draft.pool.bytes) =
      .ok (draft.finalLayout.symbols.map fun symbol => (symbol.name, exported symbol)) := by
  rw [finalEntries, List.mapM_map]
  apply mapM_ok
  intro symbol member
  have known := draft.poolFacts.knowsSymbols symbol member
  simp only [Function.comp_apply, namedSymbol_entry addressable member,
    pool_reads known (symbol_name_short names member), Except.map]

/-- Under the name of a section the blob exports that section and nothing
else. -/
theorem part_exported (names : draft.ClassNames) (part : Section) :
    Exported draft.assemble (draft.finalLayout.symbols.map fun symbol =>
      (symbol.name, exported symbol)) part (draft.sectionContent part) := by
  obtain ⟨symbol, member, named, -⟩ := draft.part_symbol part
  have listed : (part.symbol, exported symbol) ∈ draft.finalLayout.symbols.map fun symbol =>
      (symbol.name, exported symbol) := List.mem_map.mpr ⟨symbol, member, by rw [named]⟩
  obtain ⟨found, hit⟩ := findSymbol_of_mem listed
  obtain ⟨source, among, same⟩ := List.mem_map.mp (findSymbol_mem hit)
  obtain ⟨called, rfl⟩ := Prod.mk.inj same
  cases draft.leads among with
  | part other start behind holds form =>
    rw [form] at called hit
    obtain rfl := symbol_injective called
    exact ⟨start, _, hit, (draft.holds_part holds behind).slice⟩
  | record classId owner start behind known holds form =>
    rw [form] at called
    exact absurd called (names.free owner (List.mem_of_getElem? known) part)

theorem accept_assemble (addressable : draft.Addressable) (names : draft.ClassNames) (name : String)
    (id : Nat) (options : LoadOptions) :
    accept draft.assemble name id options = .ok (draft.libraryNamed name id options) := by
  apply accept_ok.mpr
  exact {
    long := by
      have front := draft.layout_written
      have behind := draft.symbolsStart_ge
      rw [assemble_length, namesStart]
      omega
    header := draft.header_reads
    magic := rfl
    version := rfl
    checksum := fun _ => draft.checksum_agrees
    engineVersion := version_reads
    names := by
      simp only [libraryNamed]
      exact names_range addressable
    symbols := by
      simp only [libraryNamed]
      rw [symbolTable_eq addressable, symbols_read addressable names]
    settings := by
      have read := draft.settings.reads_encode.run_start []
      rw [List.append_nil] at read
      simp only [libraryNamed]
      exact ⟨draft.settings.encode, part_exported names .settings, read⟩
    parts := by
      intro part content found
      rw [library_part found]
      simp only [libraryNamed]
      exact part_exported names part
    named := rfl
    numbered := rfl
    bytes := rfl
    based := rfl
    mapped := rfl
    valid := rfl }

end Precompiled.Blob.Draft
