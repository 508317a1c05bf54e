import Precompiled.Proofs.Blob.Exactness
import Precompiled.Proofs.Library.RoundTrip

/-! Which byte strings are libraries. What a blob has to look like is said in
terms of the bytes that stand in it, without the loader; the loader accepts
exactly these blobs, and what it makes of the symbol table is what the table
says. -/
namespace Precompiled.Library

open Blob Outcome

/-- The entry that a name stands for: the last one of that name. -/
def LastOf (table : List (String × α)) (name : String) (entry : α) : Prop :=
  ∃ front back, table = front ++ (name, entry) :: back ∧ ∀ later ∈ back, later.1 ≠ name

/-- What an entry of the symbol table exports. -/
def exported (entry : SymbolEntry) : ExportedSymbol :=
  ⟨entry.kind, entry.offset.toNat, entry.size.toNat⟩

/-- The bytes that an entry names. -/
def entryBytes (data : Bytes) (entry : SymbolEntry) : Bytes :=
  (data.drop entry.offset.toNat).take entry.size.toNat

/-- The name pool that a header announces. -/
def namePool (data : Bytes) (header : Header) : Bytes :=
  (data.drop header.namesOffset.toNat).take header.namesSize.toNat

/-- An entry whose range lies in the blob and whose name lies in the pool. -/
structure Entered (data pool : Bytes) (name : String) (entry : SymbolEntry) : Prop where
  inside : entry.offset.toNat + entry.size.toNat ≤ data.length
  short : (textBytes name).length ≤ maxNameBytes
  named : Holds pool entry.nameOffset.toNat (nameBytes name)

/-- A blob with its header and its symbol table, each entry with its name. -/
structure WellFormed (verify : Bool) (data : Bytes) (header : Header)
    (table : List (String × SymbolEntry)) : Prop where
  /-- In particular the blob is not shorter than a header. -/
  begins : header.encode <+: data
  magic : header.magic = magicWord
  version : header.version = formatVersion
  checksum : verify = true → Checksum.crc32 (data.drop headerSize) = header.checksum
  engineVersion : ∃ text, 0 ∉ textBytes text ∧
    Holds data header.engineVersionOffset.toNat (textBytes text ++ [0])
  pooled : header.namesOffset.toNat + header.namesSize.toNat ≤ data.length
  counted : table.length = header.symbolCount.toNat
  tabled : Holds data header.symbolsOffset.toNat (table.flatMap fun entry => entry.2.encode)
  entered : ∀ entry ∈ table, Entered data (namePool data header) entry.1 entry.2
  sections : ∀ part : Section, ∃ entry, LastOf table part.symbol entry ∧ entry.kind = .table
  /-- The settings are seven words, then twelve flags. -/
  settings : ∀ entry, LastOf table Section.settings.symbol entry →
    settingsSize ≤ (entryBytes data entry).length ∧ Decoder.FlagsAt 28 12 (entryBytes data entry)

/-! ## The header and the settings -/

theorem header_run {data : Bytes} {header : Header} :
    Header.decode.run (Cursor.start data) = .ok header ↔ header.encode <+: data := by
  constructor
  · intro ran
    obtain ⟨_, rfl, begins⟩ := Header.decode_consumes.prefix_of_start ran
    exact begins
  · rintro ⟨rest, rfl⟩
    exact header.reads_encode.run_start rest

theorem header_of_long {data : Bytes} (long : headerSize ≤ data.length) :
    ∃ header : Header, header.encode <+: data := by
  obtain ⟨header, ran⟩ := Header.decode_takes 0 (data.take headerSize) (data.drop headerSize)
    (List.length_take_of_le long) trivial
  rw [List.take_append_drop] at ran
  exact ⟨header, header_run.mp (congrArg Prod.fst ran)⟩

theorem settings_run {content : Bytes} :
    (∃ settings, BuildSettings.decode.run (Cursor.start content) = .ok settings) ↔
      settingsSize ≤ content.length ∧ Decoder.FlagsAt 28 12 content := by
  constructor
  · rintro ⟨settings, ran⟩
    obtain ⟨chunk, ⟨length, same⟩, rest, rfl⟩ := BuildSettings.decode_consumes.prefix_of_start ran
    have flags : Decoder.FlagsAt 28 12 chunk :=
      (flagsAt_withoutPadding length).mp (same ▸ settings.encode_flags)
    refine ⟨?_, (Decoder.flagsAt_append _ (by rw [length]; decide)).mpr flags⟩
    rw [List.length_append, length]
    omega
  · rintro ⟨long, flags⟩
    have length := List.length_take_of_le long
    rw [← List.take_append_drop settingsSize content] at flags ⊢
    obtain ⟨settings, ran⟩ := BuildSettings.decode_takes 0 (content.take settingsSize)
      (content.drop settingsSize) length
      ((Decoder.flagsAt_append _ (by rw [length]; decide)).mp flags)
    exact ⟨settings, congrArg Prod.fst ran⟩

/-! ## The symbol table -/

theorem namedSymbol_ok {data names : Bytes} {entry : SymbolEntry}
    {named : String × ExportedSymbol} :
    namedSymbol data names entry = .ok named ↔
      ∃ name, Entered data names name entry ∧ named = (name, exported entry) := by
  unfold namedSymbol
  simp only [bind_ok, range_ok, name_runAt, pure_ok]
  constructor
  · rintro ⟨-, ⟨inside, -⟩, name, ⟨short, holds⟩, rfl⟩
    exact ⟨name, ⟨inside, short, holds⟩, rfl⟩
  · rintro ⟨name, entered, rfl⟩
    exact ⟨_, ⟨entered.inside, rfl⟩, name, ⟨entered.short, entered.named⟩, rfl⟩

theorem readSymbols_ok {data names : Bytes} {count : Nat} {cursor : Cursor}
    {symbols : List (String × ExportedSymbol)} :
    readSymbols data names count cursor = .ok symbols ↔
      ∃ table : List (String × SymbolEntry), table.length = count ∧
        (table.flatMap fun entry => entry.2.encode) <+: cursor.rest ∧
        (∀ entry ∈ table, Entered data names entry.1 entry.2) ∧
        symbols = table.map fun entry => (entry.1, exported entry.2) := by
  induction count generalizing cursor symbols with
  | zero =>
    simp only [readSymbols, Except.ok.injEq]
    constructor
    · rintro rfl
      exact ⟨[], rfl, List.nil_prefix, List.forall_mem_nil _, rfl⟩
    · rintro ⟨table, none, -, -, rfl⟩
      rw [List.length_eq_zero_iff.mp none]
      rfl
  | succ count ih =>
    simp only [readSymbols, bind_ok, namedSymbol_ok, ih, pure_ok]
    constructor
    · rintro ⟨entry, ran, _, ⟨name, entered, rfl⟩, _, ⟨table, rfl, ⟨rest, follows⟩, others, rfl⟩,
        rfl⟩
      obtain ⟨_, split, -, rfl⟩ := SymbolEntry.decode_consumes (Prod.ext ran rfl)
      refine ⟨(name, entry) :: table, rfl, ⟨rest, ?_⟩, ?_, rfl⟩
      · rw [split, ← follows, List.flatMap_cons, List.append_assoc]
      · exact List.forall_mem_cons.mpr ⟨entered, others⟩
    · rintro ⟨table, length, ⟨rest, stands⟩, entered, rfl⟩
      obtain ⟨⟨name, entry⟩, others, rfl⟩ := List.exists_cons_of_length_eq_add_one length
      obtain ⟨first, later⟩ := List.forall_mem_cons.mp entered
      rw [List.flatMap_cons, List.append_assoc] at stands
      have read := entry.reads_encode cursor.position
        (others.flatMap (fun entry => entry.2.encode) ++ rest)
      rw [stands] at read
      rw [read]
      exact ⟨entry, rfl, _, ⟨name, first, rfl⟩, _,
        ⟨others, Nat.succ.inj length, ⟨rest, rfl⟩, later, rfl⟩, rfl⟩

theorem findSymbol_some {symbols : List (String × ExportedSymbol)} {name : String}
    {symbol : ExportedSymbol} :
    findSymbol symbols name = some symbol ↔ LastOf symbols name symbol := by
  simp only [findSymbol, Option.map_eq_some_iff, List.find?_eq_some_iff_append]
  constructor
  · rintro ⟨⟨other, found⟩, ⟨same, back, front, split, others⟩, rfl⟩
    obtain rfl : other = name := by simpa using same
    refine ⟨front.reverse, back.reverse, ?_, ?_⟩
    · rw [← List.reverse_reverse symbols, split]
      simp
    · intro later member
      simpa using others later (List.mem_reverse.mp member)
  · rintro ⟨front, back, rfl, last⟩
    refine ⟨(name, symbol), ⟨by simp, back.reverse, front.reverse, by simp, ?_⟩, rfl⟩
    intro later member
    simpa using last later (List.mem_reverse.mp member)

theorem lastOf_map {table : List (String × α)} {view : α → β} {name : String} {result : β} :
    LastOf (table.map fun entry => (entry.1, view entry.2)) name result ↔
      ∃ entry, LastOf table name entry ∧ result = view entry := by
  constructor
  · rintro ⟨front, back, split, last⟩
    obtain ⟨before, found, rfl, rfl, rest⟩ := List.map_eq_append_iff.mp split
    obtain ⟨⟨other, entry⟩, after, rfl, same, rfl⟩ := List.map_eq_cons_iff.mp rest
    cases same
    exact ⟨entry, ⟨before, after, rfl, fun later member => last _ (List.mem_map_of_mem member)⟩,
      rfl⟩
  · rintro ⟨entry, ⟨front, back, rfl, last⟩, rfl⟩
    refine ⟨_, _, List.map_append, fun later member => ?_⟩
    obtain ⟨source, among, rfl⟩ := List.mem_map.mp member
    exact last source among

theorem table_length (table : List (String × SymbolEntry)) :
    (table.flatMap fun entry => entry.2.encode).length = table.length * symbolEntrySize := by
  simp [List.length_flatMap, SymbolEntry.encode_length, List.map_const']

theorem symbolTable_ok {data names : Bytes} {header : Header}
    {symbols : List (String × ExportedSymbol)} :
    symbolTable data names header = .ok symbols ↔
      ∃ table : List (String × SymbolEntry), table.length = header.symbolCount.toNat ∧
        Holds data header.symbolsOffset.toNat (table.flatMap fun entry => entry.2.encode) ∧
        (∀ entry ∈ table, Entered data names entry.1 entry.2) ∧
        symbols = table.map fun entry => (entry.1, exported entry.2) := by
  unfold symbolTable
  simp only [bind_ok, range_ok, readSymbols_ok, cursor_ok]
  constructor
  · rintro ⟨-, -, _, ⟨bound, rfl⟩, table, length, begins, entered, rfl⟩
    exact ⟨table, length, holds_iff.mpr ⟨bound, begins⟩, entered, rfl⟩
  · rintro ⟨table, length, holds, entered, rfl⟩
    have inside := holds.bound
    rw [table_length, length] at inside
    obtain ⟨bound, begins⟩ := holds_iff.mp holds
    exact ⟨_, ⟨inside, rfl⟩, _, ⟨bound, rfl⟩, table, length, begins, entered, rfl⟩

theorem LastOf.mem {table : List (String × α)} {name : String} {entry : α}
    (last : LastOf table name entry) :
    (name, entry) ∈ table := by
  obtain ⟨front, back, rfl, -⟩ := last
  simp

/-! ## The whole blob -/

variable {data content : Bytes} {name : String} {id : Nat} {options : LoadOptions}
  {header : Header} {table : List (String × SymbolEntry)} {library : Library} {verify : Bool}

/-- The exported symbols of a table, in the table's order. -/
def exports (table : List (String × SymbolEntry)) : List (String × ExportedSymbol) :=
  table.map fun entry => (entry.1, exported entry.2)

theorem findSymbol_exports {symbol : ExportedSymbol} :
    findSymbol (exports table) name = some symbol ↔
      ∃ entry, LastOf table name entry ∧ symbol = exported entry :=
  findSymbol_some.trans lastOf_map

/-- A name stands for one thing. -/
theorem LastOf.same {first second : SymbolEntry} (one : LastOf table name first)
    (two : LastOf table name second) : exported first = exported second :=
  Option.some.inj <| (findSymbol_exports.mpr ⟨first, one, rfl⟩).symm.trans
    (findSymbol_exports.mpr ⟨second, two, rfl⟩)

theorem LastOf.same_bytes {first second : SymbolEntry} (one : LastOf table name first)
    (two : LastOf table name second) : entryBytes data first = entryBytes data second := by
  have same := one.same two
  rw [exported, exported, ExportedSymbol.mk.injEq] at same
  rw [entryBytes, entryBytes, same.2.1, same.2.2]

theorem exported_exports {part : Section} :
    Exported data (exports table) part content ↔
      ∃ entry, LastOf table part.symbol entry ∧ entry.kind = .table ∧
        entryBytes data entry = content := by
  unfold Exported
  simp only [findSymbol_exports, exported, ExportedSymbol.mk.injEq]
  constructor
  · rintro ⟨_, _, ⟨entry, last, kind, rfl, rfl⟩, rfl⟩
    exact ⟨entry, last, kind.symm, rfl⟩
  · rintro ⟨entry, last, kind, rfl⟩
    exact ⟨_, _, ⟨entry, last, kind.symm, rfl, rfl⟩, rfl⟩

/-- What the loader accepted is well-formed, and its symbols are the table's. -/
theorem Accepted.wellFormed (accepted : Accepted data name id options library) :
    ∃ table, WellFormed options.verifyChecksum data library.header table ∧
      library.symbols = exports table := by
  obtain ⟨pooled, pool⟩ := range_ok.mp accepted.names
  have symbols := accepted.symbols
  rw [← pool] at symbols
  obtain ⟨table, counted, tabled, entered, same⟩ := symbolTable_ok.mp symbols
  have exported : library.symbols = exports table := same
  obtain ⟨content, found, decoded⟩ := accepted.settings
  have sections : ∀ part : Section, ∃ bytes, Exported data (exports table) part bytes := by
    intro part
    rw [← exported]
    cases kept : library.part? part with
    | none =>
      cases part <;> cases kept
      exact ⟨content, found⟩
    | some bytes => exact ⟨bytes, accepted.parts part bytes kept⟩
  rw [exported] at found
  refine ⟨table, {
    begins := header_run.mp accepted.header
    magic := accepted.magic
    version := accepted.version
    checksum := accepted.checksum
    engineVersion := ⟨_, cString_runAt.mp accepted.engineVersion⟩
    pooled, counted, tabled, entered
    sections := fun part => ?sections
    settings := fun entry last => ?settings }, exported⟩
  case sections =>
    obtain ⟨bytes, there⟩ := sections part
    obtain ⟨entry, last, kind, -⟩ := exported_exports.mp there
    exact ⟨entry, last, kind⟩
  case settings =>
    obtain ⟨other, named, -, rfl⟩ := exported_exports.mp found
    exact settings_run.mp ⟨_, named.same_bytes last ▸ decoded⟩

/-- A well-formed blob is accepted. -/
theorem WellFormed.accepted (whole : WellFormed verify data header table) (name : String)
    (id : Nat) (options : LoadOptions) (verifies : options.verifyChecksum = verify) :
    ∃ library, Accepted data name id options library := by
  choose entry last kind using whole.sections
  let bytes (part : Section) : Bytes := entryBytes data (entry part)
  have exported : ∀ part, Exported data (exports table) part (bytes part) :=
    fun part => exported_exports.mpr ⟨entry part, last part, kind part, rfl⟩
  obtain ⟨text, version⟩ := whole.engineVersion
  obtain ⟨settings, decoded⟩ := settings_run.mpr (whole.settings _ (last .settings))
  let contents : SectionContents := {
    code := bytes .code
    segments := bytes .segments
    classes := bytes .classes
    codeRecords := bytes .codeRecords
    codeDetails := bytes .codeDetails
    dependents := bytes .dependents
    metaspaceNames := bytes .metaspaceNames
    objectNames := bytes .objectNames
    stubs := bytes .stubs
    routines := bytes .routines }
  refine ⟨{
    name, id, bytes := data, header, settings, engineVersion := text, symbols := exports table
    contents, names := namePool data header, mapped := options.mapCode && !contents.code.isEmpty
    codeBase := options.codeBase, valid := true }, {
    long := header.encode_length ▸ whole.begins.length_le
    header := header_run.mpr whole.begins
    magic := whole.magic
    version := whole.version
    checksum := verifies ▸ whole.checksum
    engineVersion := cString_runAt.mpr version
    names := range_ok.mpr ⟨whole.pooled, rfl⟩
    symbols := symbolTable_ok.mpr ⟨table, whole.counted, whole.tabled, whole.entered, rfl⟩
    settings := ⟨_, exported .settings, decoded⟩
    parts := ?parts
    named := rfl, numbered := rfl, bytes := rfl, based := rfl, mapped := rfl, valid := rfl }⟩
  case parts =>
    intro part content kept
    cases part <;> cases kept <;> exact exported _

/-! ## Refusing a header -/

theorem checkHeader_refuses_checksum (magic : header.magic = magicWord)
    (version : header.version = formatVersion)
    (wrong : Checksum.crc32 (data.drop headerSize) ≠ header.checksum) :
    checkHeader name data true header =
      .error (.format name (.checksum (Checksum.crc32 (data.drop headerSize)) header.checksum)) := by
  simp [checkHeader, magic, version, wrong, throw, throwThe, MonadExceptOf.throw]

theorem checkHeader_refuses
    (wrong : header.magic ≠ magicWord ∨ header.version ≠ formatVersion ∨
      verify = true ∧ Checksum.crc32 (data.drop headerSize) ≠ header.checksum) :
    ∃ fault, checkHeader name data verify header = .error (.format name fault) := by
  by_cases magic : header.magic = magicWord
  · by_cases version : header.version = formatVersion
    · obtain ⟨rfl, checksum⟩ := (wrong.resolve_left (· magic)).resolve_left (· version)
      exact ⟨_, checkHeader_refuses_checksum magic version checksum⟩
    · refine ⟨.version header.version formatVersion, ?_⟩
      simp [checkHeader, magic, version, throw, throwThe, MonadExceptOf.throw, Bind.bind,
        Except.bind]
  · refine ⟨.magic (word64 header.magic), ?_⟩
    simp [checkHeader, magic, throw, throwThe, MonadExceptOf.throw, Bind.bind, Except.bind]

theorem accept_refuses_short (short : data.length < headerSize) :
    accept data name id options = .error (.format name (.tooShort data.length)) := by
  simp [accept, short, throw, throwThe, MonadExceptOf.throw, Bind.bind, Except.bind]

/-- The header is judged before anything else is looked at. -/
theorem accept_refuses_check {error : Error} (begins : header.encode <+: data)
    (refused : checkHeader name data options.verifyChecksum header = .error error) :
    accept data name id options = .error error := by
  have long : ¬data.length < headerSize :=
    Nat.not_lt.mpr (header.encode_length ▸ begins.length_le)
  rw [accept, if_neg long, header_run.mpr begins]
  simp only [inLibrary, Except.mapError, ok_bind, refused]
  rfl

theorem accept_refuses_header (begins : header.encode <+: data)
    (wrong : header.magic ≠ magicWord ∨ header.version ≠ formatVersion ∨
      options.verifyChecksum = true ∧
        Checksum.crc32 (data.drop headerSize) ≠ header.checksum) :
    ∃ fault, accept data name id options = .error (.format name fault) := by
  obtain ⟨fault, refused⟩ := @checkHeader_refuses data name header _ wrong
  exact ⟨fault, accept_refuses_check begins refused⟩

/-- Loading without an executable mapping accepts exactly the well-formed blobs.
The sections of what was loaded lie inside the blob, a symbol is the last entry
of its name, and a blob whose header is wrong is refused for its format,
whatever else it holds. -/
theorem load_exact (data : Bytes) (name : String) (id base : Nat) (verify : Bool)
    (journal : Journal) :
    let options : LoadOptions := { verifyChecksum := verify, codeBase := base }
    let outcome := ((load data name id options).run journal).1
    ((∃ library, outcome = .ok library) ↔ ∃ header table, WellFormed verify data header table) ∧
    (∀ library, outcome = .ok library → ∃ table,
      WellFormed verify data library.header table ∧
      (∀ part : Section, ∃ entry, LastOf table part.symbol entry ∧
        entry.offset.toNat + entry.size.toNat ≤ data.length ∧
        ∀ content, library.part? part = some content → content = entryBytes data entry) ∧
      (∀ called symbol, library.symbol called = some symbol ↔
        ∃ entry, LastOf table called entry ∧ symbol = exported entry)) ∧
    (data.length < headerSize → ∃ fault, outcome = .error (.format name fault)) ∧
    (headerSize ≤ data.length → ∃ header : Header, header.encode <+: data) ∧
    (∀ header : Header, header.encode <+: data →
      header.magic ≠ magicWord ∨ header.version ≠ formatVersion ∨
        verify = true ∧ Checksum.crc32 (data.drop headerSize) ≠ header.checksum →
      ∃ fault, outcome = .error (.format name fault)) := by
  intro options outcome
  have accepts : outcome = accept data name id options := Edits.load_run ..
  rw [accepts]
  refine ⟨?exactly, ?faithful, ?short, header_of_long, ?wrong⟩
  case exactly =>
    constructor
    · rintro ⟨library, accepted⟩
      obtain ⟨table, whole, -⟩ := (accept_ok.mp accepted).wellFormed
      exact ⟨_, table, whole⟩
    · rintro ⟨header, table, whole⟩
      obtain ⟨library, accepted⟩ := whole.accepted name id options rfl
      exact ⟨library, accept_ok.mpr accepted⟩
  case faithful =>
    intro library loaded
    have accepted := accept_ok.mp loaded
    obtain ⟨table, whole, symbols⟩ := accepted.wellFormed
    refine ⟨table, whole, fun part => ?_, fun called symbol => ?_⟩
    · obtain ⟨entry, last, -⟩ := whole.sections part
      have entered := whole.entered (part.symbol, entry) last.mem
      refine ⟨entry, last, entered.inside, fun content kept => ?_⟩
      have found := accepted.parts part content kept
      rw [symbols] at found
      obtain ⟨other, named, -, rfl⟩ := exported_exports.mp found
      exact named.same_bytes last
    · rw [Library.symbol, symbols]
      exact findSymbol_exports
  case short => exact fun short => ⟨_, accept_refuses_short short⟩
  case wrong => exact fun header begins wrong => accept_refuses_header begins wrong

end Precompiled.Library
