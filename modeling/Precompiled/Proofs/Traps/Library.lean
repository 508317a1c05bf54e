import Precompiled.Proofs.Library.Acceptance
import Precompiled.Proofs.Traps.Records
import Precompiled.Proofs.Traps.Evaluates

/-! A library as it is kept in memory: the blob, and for each section the place where it
lies in there. A section is cut out of the blob anew for each view. The loader checks a
range once, and whatever the bytes of an accepted blob are, no cut of it traps. -/
namespace Precompiled

open Blob Trapping

/-- A range of a blob by its place. -/
structure Span where
  offset : Nat
  size : Nat
  deriving DecidableEq, Repr

namespace Span

variable {data : Bytes} {span : Span}

/-- The bytes at the place, cut out of the blob. -/
def cut (data : Bytes) (span : Span) : Trapping Bytes := do
  slice data span.offset (← add span.offset span.size)

def content (data : Bytes) (span : Span) : Bytes :=
  (data.drop span.offset).take span.size

def Within (data : Bytes) (span : Span) : Prop :=
  span.offset + span.size ≤ data.length

theorem cut_ok (within : span.Within data) (small : data.length < 2 ^ 63) :
    span.cut data = .ok (span.content data) := by
  unfold Within at within
  rw [cut, add_ok (by omega), Outcome.ok_bind, slice_ok (Nat.le_add_right _ _) within,
    Nat.add_sub_cancel_left]
  rfl

theorem content_length (within : span.Within data) : (span.content data).length = span.size := by
  unfold Within at within
  rw [content, List.length_take, List.length_drop]
  omega

theorem content_small (span : Span) (small : data.length < 2 ^ 63) :
    (span.content data).length < 2 ^ 63 := by
  rw [content, List.length_take, List.length_drop]
  omega

end Span

/-- The places of the sections that views read. -/
structure Places where
  code : Span
  segments : Span
  classes : Span
  codeRecords : Span
  codeDetails : Span
  dependents : Span
  metaspaceNames : Span
  objectNames : Span
  stubs : Span
  routines : Span

structure Stored where
  name : String
  id : Nat
  data : Bytes
  header : Header
  settings : BuildSettings
  engineVersion : String
  symbols : List (String × ExportedSymbol)
  places : Places
  names : Span
  mapped : Bool
  codeBase : Nat
  valid : Bool

namespace Stored

/-- The library with the contents of its sections. -/
def library (stored : Stored) : Library where
  name := stored.name
  id := stored.id
  bytes := stored.data
  header := stored.header
  settings := stored.settings
  engineVersion := stored.engineVersion
  symbols := stored.symbols
  contents := {
    code := stored.places.code.content stored.data
    segments := stored.places.segments.content stored.data
    classes := stored.places.classes.content stored.data
    codeRecords := stored.places.codeRecords.content stored.data
    codeDetails := stored.places.codeDetails.content stored.data
    dependents := stored.places.dependents.content stored.data
    metaspaceNames := stored.places.metaspaceNames.content stored.data
    objectNames := stored.places.objectNames.content stored.data
    stubs := stored.places.stubs.content stored.data
    routines := stored.places.routines.content stored.data }
  names := stored.names.content stored.data
  mapped := stored.mapped
  codeBase := stored.codeBase
  valid := stored.valid

/-- Every section lies inside the blob, and the size of the segment map fits half a word. -/
structure Sound (stored : Stored) : Prop where
  small : stored.data.length < 2 ^ 63
  code : stored.places.code.Within stored.data
  segments : stored.places.segments.Within stored.data
  shortMap : stored.places.segments.size < 2 ^ 32
  classes : stored.places.classes.Within stored.data
  codeRecords : stored.places.codeRecords.Within stored.data
  codeDetails : stored.places.codeDetails.Within stored.data
  dependents : stored.places.dependents.Within stored.data
  metaspaceNames : stored.places.metaspaceNames.Within stored.data
  objectNames : stored.places.objectNames.Within stored.data
  stubs : stored.places.stubs.Within stored.data
  routines : stored.places.routines.Within stored.data
  names : stored.names.Within stored.data

/-! ## Loading -/

/-- A range that lies inside the data, by its place. -/
def checkedRange (data : Bytes) (offset size : Nat) : Except DecodeError Span :=
  match (add? offset size).filter (· ≤ data.length) with
  | some _ => .ok ⟨offset, size⟩
  | none => .error (.unexpectedEnd offset size)

/-- One entry of the symbol table with its name. -/
def namedSymbol (data pool : Bytes) (entry : SymbolEntry) :
    ExceptT DecodeError Trapping (String × ExportedSymbol) := do
  let range ← checkedRange data entry.offset.toNat entry.size.toNat
  let name ← ExceptT.mk (Scan.name.runAt pool entry.nameOffset.toNat)
  return (name, ⟨entry.kind, range.offset, range.size⟩)

def readSymbols (data pool : Bytes) :
    Nat → Window → ExceptT DecodeError Trapping (List (String × ExportedSymbol))
  | 0, _ => return []
  | count + 1, window => do
    let (entry, after) ← Scan.symbolEntry window
    let symbol ← namedSymbol data pool (← entry)
    return symbol :: (← readSymbols data pool count after)

def symbolTable (data : Bytes) (names : Span) (header : Header) :
    ExceptT DecodeError Trapping (List (String × ExportedSymbol)) := do
  let start := header.symbolsOffset.toNat
  let count := header.symbolCount.toNat
  let _ ← checkedRange data start (saturatingMul count symbolEntrySize)
  let pool ← names.cut data
  readSymbols data pool count (← Window.at? data start)

/-- The place of a required section. -/
def locate (library : String) (symbols : List (String × ExportedSymbol)) (part : Section) :
    Except Error Span :=
  match Library.findSymbol symbols part.symbol with
  | some ⟨.table, offset, size⟩ => .ok ⟨offset, size⟩
  | _ => .error (.missingSymbol library part.symbol)

/-- Names the library in a decode failure. -/
def inLibrary {α : Type} (library : String) (outcome : ExceptT DecodeError Trapping α) :
    ExceptT Error Trapping α :=
  ExceptT.mk (Except.map (Library.inLibrary library) outcome.run)

def checkHeader (library : String) (data : Bytes) (verifyChecksum : Bool) (header : Header) :
    ExceptT Error Trapping Unit := do
  if header.magic ≠ magicWord then
    throw (.format library (.magic (word64 header.magic)))
  if header.version ≠ formatVersion then
    throw (.format library (.version header.version formatVersion))
  if verifyChecksum then
    let computed := Checksum.crc32 (← slice data headerSize data.length)
    if computed ≠ header.checksum then
      throw (.format library (.checksum computed header.checksum))

/-- Accepts a blob as the library `name`, or says why not. -/
def accept (data : Bytes) (name : String) (id : Nat) (options : LoadOptions) :
    ExceptT Error Trapping Stored := do
  if data.length < headerSize then
    throw (.format name (.tooShort data.length))
  let header ← inLibrary name (Scan.header.run (Window.start data))
  checkHeader name data options.verifyChecksum header
  let engineVersion ← inLibrary name
    (Scan.cString.runAt data header.engineVersionOffset.toNat)
  let names ← inLibrary name (liftM (checkedRange data header.namesOffset.toNat header.namesSize.toNat))
  let symbols ← inLibrary name (symbolTable data names header)
  let part := locate name symbols
  let settingsSpan ← part .settings
  let places : Places := {
    code := ← part .code
    segments := ← part .segments
    classes := ← part .classes
    codeRecords := ← part .codeRecords
    codeDetails := ← part .codeDetails
    dependents := ← part .dependents
    metaspaceNames := ← part .metaspaceNames
    objectNames := ← part .objectNames
    stubs := ← part .stubs
    routines := ← part .routines }
  let settings ← inLibrary name (Scan.settings.run (Window.start (← settingsSpan.cut data)))
  let mapped ← if options.mapCode then pure !(← places.code.cut data).isEmpty else pure false
  return {
    name, id, data, header, settings, engineVersion, symbols, places, names
    mapped, codeBase := options.codeBase, valid := true }

/-! ## No trap while loading -/

section Loading

variable {data : Bytes} {name : String}

theorem checkedRange_evaluates (small : data.length < 2 ^ 63) (offset size : Nat) :
    Evaluates (ε := DecodeError)
      (fun span content => span = ⟨offset, size⟩ ∧ span.Within data ∧ span.content data = content)
      (liftM (checkedRange data offset size)) (Library.range? data offset size) := by
  unfold checkedRange Library.range?
  by_cases inside : offset + size ≤ data.length
  · rw [add?_some (by omega), if_pos inside]
    simp only [Option.filter, inside, decide_true, if_true]
    exact .ok ⟨rfl, inside, rfl⟩
  · have none : (add? offset size).filter (· ≤ data.length) = none := by
      rw [add?]
      split
      · simpa using Nat.lt_of_not_le inside
      · rfl
    rw [none, if_neg inside]
    exact .error _

theorem inLibrary_evaluates {α β : Type} {same : α → β → Prop}
    {outcome : ExceptT DecodeError Trapping α} {plain : Except DecodeError β}
    (evaluates : Evaluates same outcome plain) :
    Evaluates same (inLibrary name outcome) (Library.inLibrary name plain) := by
  cases evaluates with
  | error error => exact .error _
  | ok known => exact .ok known

/-- The symbol names a range inside the data. -/
def InRange (data : Bytes) (symbol : ExportedSymbol) : Prop :=
  symbol.offset + symbol.size ≤ data.length ∧ symbol.size < 2 ^ 32

/-- The ranges that the symbols name lie inside the data. -/
def Ranged (data : Bytes) (symbols : List (String × ExportedSymbol)) : Prop :=
  ∀ entry ∈ symbols, InRange data entry.2

theorem namedSymbol_evaluates (small : data.length < 2 ^ 63) {pool : Bytes}
    (smallPool : pool.length < 2 ^ 63) (entry : SymbolEntry) :
    Evaluates (fun symbol result => symbol = result ∧ InRange data symbol.2)
      (namedSymbol data pool entry) (Library.namedSymbol data pool entry) := by
  refine (checkedRange_evaluates small _ _).bind ?_
  rintro _ content - ⟨rfl, within, -⟩
  refine (Evaluates.of_eq (Scan.name_mirrors.runAt smallPool _)).bind ?_
  rintro text _ - rfl
  exact .ok ⟨rfl, within, entry.size.toNat_lt⟩

theorem readSymbols_evaluates (small : data.length < 2 ^ 63) {pool : Bytes}
    (smallPool : pool.length < 2 ^ 63) (count : Nat) (window : Window) (inside : window.Inside) :
    Evaluates (fun symbols result => symbols = result ∧ Ranged data symbols)
      (readSymbols data pool count window)
      (Library.readSymbols data pool count window.cursor) := by
  induction count generalizing window with
  | zero => exact .ok ⟨rfl, fun _ among => (List.not_mem_nil among).elim⟩
  | succ count ih =>
    obtain ⟨after, -, within, scanned, left⟩ := Scan.symbolEntry_mirrors window inside
    rw [readSymbols, Library.readSymbols, evaluate_bind scanned]
    generalize SymbolEntry.decode window.cursor = outcome at left ⊢
    obtain ⟨entry, cursor⟩ := outcome
    cases left
    refine (Evaluates.lift entry).bind ?_
    rintro record _ - rfl
    refine (namedSymbol_evaluates small smallPool record).bind ?_
    rintro symbol _ - ⟨rfl, range⟩
    refine (ih after within).bind ?_
    rintro symbols _ - ⟨rfl, ranged⟩
    exact .ok ⟨rfl, List.forall_mem_cons.mpr ⟨range, ranged⟩⟩

theorem symbolTable_evaluates (small : data.length < 2 ^ 63) {names : Span}
    (within : names.Within data) (header : Header) :
    Evaluates (fun symbols result => symbols = result ∧ Ranged data symbols)
      (symbolTable data names header)
      (Library.symbolTable data (names.content data) header) := by
  have few : header.symbolCount.toNat < 2 ^ 32 := header.symbolCount.toNat_lt
  have exact : saturatingMul header.symbolCount.toNat symbolEntrySize =
      header.symbolCount.toNat * symbolEntrySize := by
    rw [saturatingMul, symbolEntrySize]
    omega
  rw [symbolTable, Library.symbolTable, exact]
  refine (checkedRange_evaluates small _ _).bind ?_
  rintro _ content - -
  rw [evaluate_bind (Span.cut_ok within small)]
  by_cases outside : data.length < header.symbolsOffset.toNat
  · simp only [Window.at?, Cursor.at?, if_pos outside, if_neg (Nat.not_le.mpr outside)]
    exact .error _
  · simp only [Window.at?, Cursor.at?, if_neg outside, if_pos (Nat.le_of_not_lt outside)]
    exact readSymbols_evaluates small (Span.content_small names small) _ _
      ⟨Nat.le_of_not_lt outside, small⟩

theorem locate_evaluates {symbols : List (String × ExportedSymbol)} (ranged : Ranged data symbols)
    (part : Section) :
    Evaluates (ε := Error)
      (fun span content => (span.Within data ∧ span.size < 2 ^ 32) ∧ span.content data = content)
      (liftM (locate name symbols part)) (Library.sectionBytes name data symbols part) := by
  unfold locate Library.sectionBytes
  cases found : Library.findSymbol symbols part.symbol with
  | none => exact .error _
  | some symbol =>
    obtain ⟨kind, offset, size⟩ := symbol
    cases kind with
    | table => exact .ok ⟨ranged _ (Library.findSymbol_mem found), rfl⟩
    | classRecord => exact .error _

theorem checkHeader_evaluates (long : headerSize ≤ data.length)
    (verify : Bool) (header : Header) :
    Evaluates (fun _ _ => True) (checkHeader name data verify header)
      (Library.checkHeader name data verify header) := by
  have rest : slice data headerSize data.length = .ok (data.drop headerSize) := by
    rw [slice_ok long (Nat.le_refl _), List.take_of_length_le (by simp)]
  unfold checkHeader Library.checkHeader
  refine Evaluates.guard fun _ => Evaluates.guard fun _ => ?_
  cases verify with
  | false => exact .ok trivial
  | true =>
    rw [if_pos rfl, if_pos rfl, evaluate_bind rest]
    dsimp only
    split
    · exact .error _
    · exact .ok trivial

/-- Whatever the bytes are, accepting them does not trap, and an accepted library is sound. -/
theorem accept_evaluates (small : data.length < 2 ^ 63) (id : Nat) (options : LoadOptions) :
    Evaluates (fun stored library => stored.library = library ∧ stored.Sound)
      (accept data name id options) (Library.accept data name id options) := by
  unfold accept Library.accept
  refine Evaluates.guard fun long => ?_
  rw [Nat.not_lt] at long
  refine (inLibrary_evaluates (.of_eq (Scan.header_mirrors.run_start small))).bind ?_
  rintro header _ - rfl
  refine (checkHeader_evaluates long _ header).bind fun _ _ _ _ => ?_
  refine (inLibrary_evaluates (.of_eq (Scan.cString_mirrors.runAt small _))).bind ?_
  rintro engineVersion _ - rfl
  refine (inLibrary_evaluates (checkedRange_evaluates small _ _)).bind ?_
  rintro names _ - ⟨-, namesWithin, rfl⟩
  refine (inLibrary_evaluates (symbolTable_evaluates small namesWithin header)).bind ?_
  rintro symbols _ - ⟨rfl, ranged⟩
  have located := fun part => @locate_evaluates data name symbols ranged part
  refine (located .settings).bind ?_
  rintro settingsSpan _ - ⟨⟨settingsWithin, -⟩, rfl⟩
  refine (located .code).bind ?_
  rintro code _ - ⟨⟨codeWithin, -⟩, rfl⟩
  refine (located .segments).bind ?_
  rintro segments _ - ⟨⟨segmentsWithin, shortMap⟩, rfl⟩
  refine (located .classes).bind ?_
  rintro classes _ - ⟨⟨classesWithin, -⟩, rfl⟩
  refine (located .codeRecords).bind ?_
  rintro codeRecords _ - ⟨⟨codeRecordsWithin, -⟩, rfl⟩
  refine (located .codeDetails).bind ?_
  rintro codeDetails _ - ⟨⟨codeDetailsWithin, -⟩, rfl⟩
  refine (located .dependents).bind ?_
  rintro dependents _ - ⟨⟨dependentsWithin, -⟩, rfl⟩
  refine (located .metaspaceNames).bind ?_
  rintro metaspaceNames _ - ⟨⟨metaspaceNamesWithin, -⟩, rfl⟩
  refine (located .objectNames).bind ?_
  rintro objectNames _ - ⟨⟨objectNamesWithin, -⟩, rfl⟩
  refine (located .stubs).bind ?_
  rintro stubs _ - ⟨⟨stubsWithin, -⟩, rfl⟩
  refine (located .routines).bind ?_
  rintro routines _ - ⟨⟨routinesWithin, -⟩, rfl⟩
  rw [evaluate_bind (Span.cut_ok settingsWithin small)]
  have read := Scan.settings_mirrors.run_start (Span.content_small settingsSpan small)
  refine (inLibrary_evaluates (.of_eq read)).bind ?_
  rintro settings _ - rfl
  have sound : Sound ⟨name, id, data, header, settings, engineVersion, symbols,
      ⟨code, segments, classes, codeRecords, codeDetails, dependents, metaspaceNames, objectNames,
        stubs, routines⟩, names, options.mapCode && !(code.content data).isEmpty, options.codeBase,
      true⟩ :=
    ⟨small, codeWithin, segmentsWithin, shortMap, classesWithin, codeRecordsWithin, codeDetailsWithin,
      dependentsWithin, metaspaceNamesWithin, objectNamesWithin, stubsWithin, routinesWithin,
      namesWithin⟩
  cases mapping : options.mapCode with
  | false =>
    rw [mapping] at sound
    exact .ok ⟨rfl, sound⟩
  | true =>
    rw [mapping] at sound
    rw [if_pos rfl, evaluate_bind (Span.cut_ok codeWithin small)]
    exact .ok ⟨rfl, sound⟩

end Loading

end Stored

end Precompiled
