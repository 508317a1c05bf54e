import Precompiled.Library
import Precompiled.Proofs.Blob.Codec
import Precompiled.Proofs.Outcome

/-! What the loader demands of a blob, taken apart into one fact for each of
its steps. Both directions are used: a library that was accepted satisfies all
of them, and a blob that satisfies them is accepted. -/
namespace Precompiled.Library

open Blob Outcome

/-- The bytes a library keeps of a section; the settings are kept decoded. -/
def part? (library : Library) : Section → Option Bytes
  | .settings => none
  | .code => some library.contents.code
  | .segments => some library.contents.segments
  | .classes => some library.contents.classes
  | .codeRecords => some library.contents.codeRecords
  | .codeDetails => some library.contents.codeDetails
  | .dependents => some library.contents.dependents
  | .metaspaceNames => some library.contents.metaspaceNames
  | .objectNames => some library.contents.objectNames
  | .stubs => some library.contents.stubs
  | .routines => some library.contents.routines

/-- The range of a blob that a section's symbol leads to. -/
def Exported (data : Bytes) (symbols : List (String × ExportedSymbol)) (part : Section)
    (content : Bytes) : Prop :=
  ∃ offset size, findSymbol symbols part.symbol = some ⟨.table, offset, size⟩ ∧
    (data.drop offset).take size = content

variable {data content : Bytes} {name : String} {id : Nat} {options : LoadOptions}
  {library : Library} {symbols : List (String × ExportedSymbol)} {symbol : ExportedSymbol}
  {part : Section} {verify : Bool}

theorem sectionBytes_ok :
    sectionBytes name data symbols part = .ok content ↔ Exported data symbols part content := by
  unfold sectionBytes Exported
  split
  next offset size found =>
    constructor
    · intro same
      exact ⟨offset, size, found, Except.ok.inj same⟩
    · rintro ⟨start, length, hit, rfl⟩
      cases found.symm.trans hit
      rfl
  next other =>
    constructor
    · intro impossible
      cases impossible
    · rintro ⟨offset, size, found, -⟩
      exact absurd found (other offset size)

/-- Everything the loader checks and takes over. -/
structure Accepted (data : Bytes) (name : String) (id : Nat) (options : LoadOptions)
    (library : Library) : Prop where
  long : headerSize ≤ data.length
  header : Header.decode.run (Cursor.start data) = .ok library.header
  magic : library.header.magic = magicWord
  version : library.header.version = formatVersion
  checksum : options.verifyChecksum = true →
    Checksum.crc32 (data.drop headerSize) = library.header.checksum
  engineVersion : Decoder.cString.runAt data library.header.engineVersionOffset.toNat =
    .ok library.engineVersion
  names : range? data library.header.namesOffset.toNat library.header.namesSize.toNat =
    .ok library.names
  symbols : symbolTable data library.names library.header = .ok library.symbols
  settings : ∃ content, Exported data library.symbols .settings content ∧
    BuildSettings.decode.run (Cursor.start content) = .ok library.settings
  parts : ∀ part content, library.part? part = some content →
    Exported data library.symbols part content
  named : library.name = name
  numbered : library.id = id
  bytes : library.bytes = data
  based : library.codeBase = options.codeBase
  mapped : library.mapped = (options.mapCode && !library.contents.code.isEmpty)
  valid : library.valid = true

theorem checkHeader_ok {header : Header} {done : Unit} :
    checkHeader name data verify header = .ok done ↔
      header.magic = magicWord ∧ header.version = formatVersion ∧
        (verify = true → Checksum.crc32 (data.drop headerSize) = header.checksum) := by
  unfold checkHeader
  rw [guard_ok, guard_ok]
  cases verify with
  | false => simp [pure_ok]
  | true =>
    simp only [ne_eq, Decidable.not_not, true_implies, if_true]
    by_cases same : Checksum.crc32 (data.drop headerSize) = header.checksum
    · simp [same, pure_ok]
    · simp [same, throw, throwThe, MonadExceptOf.throw]

theorem accept_ok : accept data name id options = .ok library ↔
    Accepted data name id options library := by
  unfold accept
  simp only [guard_ok, bind_ok, inLibrary, mapError_ok, sectionBytes_ok, checkHeader_ok, pure_ok]
  constructor
  · rintro ⟨long, header, decoded, -, ⟨magic, version, checksum⟩, engineVersion, versionRead, names,
      namesRead, symbols, symbolsRead, settingsBytes, settingsFound, code, codeFound, segments,
      segmentsFound, classes, classesFound, codeRecords, recordsFound, codeDetails, detailsFound,
      dependents, dependentsFound, metaspaceNames, metaspaceFound, objectNames, objectsFound,
      stubs, stubsFound, routines, routinesFound, settings, settingsRead, rfl⟩
    refine { long := Nat.le_of_not_lt long, header := decoded, magic, version, checksum
             engineVersion := versionRead, names := namesRead, symbols := symbolsRead
             settings := ⟨settingsBytes, settingsFound, settingsRead⟩, parts := ?_, named := rfl
             numbered := rfl, bytes := rfl, based := rfl, mapped := rfl, valid := rfl }
    intro part content kept
    cases part with
    | settings => cases kept
    | _ => cases kept; assumption
  · intro accepted
    obtain ⟨settingsBytes, settingsFound, settingsRead⟩ := accepted.settings
    have parts := accepted.parts
    refine ⟨Nat.not_lt.mpr accepted.long, library.header, accepted.header, (),
      ⟨accepted.magic, accepted.version, accepted.checksum⟩, library.engineVersion,
      accepted.engineVersion, library.names, accepted.names, library.symbols, accepted.symbols,
      settingsBytes, settingsFound, _, parts .code _ rfl, _, parts .segments _ rfl, _,
      parts .classes _ rfl, _, parts .codeRecords _ rfl, _, parts .codeDetails _ rfl, _,
      parts .dependents _ rfl, _, parts .metaspaceNames _ rfl, _, parts .objectNames _ rfl, _,
      parts .stubs _ rfl, _, parts .routines _ rfl, library.settings, settingsRead, ?_⟩
    cases library
    rw [Library.mk.injEq]
    exact ⟨accepted.named.symm, accepted.numbered.symm, accepted.bytes.symm, rfl, rfl, rfl, rfl, rfl,
      rfl, accepted.mapped.symm, accepted.based.symm, accepted.valid.symm⟩

/-! ## The symbol table -/

theorem range_ok : range? data offset size = .ok content ↔
    offset + size ≤ data.length ∧ (data.drop offset).take size = content := by
  unfold range?
  split
  next inside => simp [inside]
  next outside => simp [outside]

/-- Entries that stand one after the other are read one after the other. -/
theorem readSymbols_entries (data names : Bytes) (entries : List SymbolEntry) (position : Nat)
    (suffix : Bytes) :
    readSymbols data names entries.length
      ⟨position, entries.flatMap SymbolEntry.encode ++ suffix⟩ =
      entries.mapM (namedSymbol data names) := by
  induction entries generalizing position with
  | nil => rfl
  | cons entry rest ih =>
    have decoded := entry.reads_encode position (rest.flatMap SymbolEntry.encode ++ suffix)
    rw [← List.append_assoc, ← List.flatMap_cons] at decoded
    rw [List.length_cons, readSymbols, decoded, List.mapM_cons]
    simp only [ih]
    rfl

theorem findSymbol_mem (found : findSymbol symbols name = some symbol) :
    (name, symbol) ∈ symbols := by
  simp only [findSymbol, Option.map_eq_some_iff] at found
  obtain ⟨⟨other, entry⟩, hit, rfl⟩ := found
  have same : other = name := by simpa using List.find?_some hit
  subst same
  exact List.mem_reverse.mp (List.mem_of_find?_eq_some hit)

theorem findSymbol_of_mem (member : (name, symbol) ∈ symbols) :
    ∃ found, findSymbol symbols name = some found := by
  rcases missing : symbols.reverse.find? fun entry => entry.1 == name with _ | hit
  · have absent := List.find?_eq_none.mp missing (name, symbol) (List.mem_reverse.mpr member)
    simp at absent
  · exact ⟨hit.2, by simp [findSymbol, missing]⟩

end Precompiled.Library
