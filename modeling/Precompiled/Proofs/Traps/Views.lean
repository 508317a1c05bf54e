import Precompiled.Proofs.Traps.Library

/-! The views of a library, each of them cutting the sections it reads out of the blob. The
arguments are whatever the caller pleases: a class id or an index is any word, and the
fields of a record are any signed words. None of the views traps. -/
namespace Precompiled

namespace Stored

open Blob Trapping

section Definitions

variable (stored : Stored)

/-- A read through the blob on behalf of the library. -/
def reading {α : Type} (outcome : ExceptT DecodeError Trapping α) : ExceptT Error Trapping α :=
  inLibrary stored.name outcome

def findClassRecord (name : String) : ExceptT Error Trapping (Option ClassRecord) :=
  match Library.findSymbol stored.symbols name with
  | some ⟨.classRecord, offset, _⟩ => do
    return some (← stored.reading (Scan.classRecord.runAt stored.data offset))
  | _ => return none

def classRecord (classId : Nat) : ExceptT Error Trapping ClassRecord := do
  let offset ← mul classId classRecordSize
  let classes ← stored.places.classes.cut stored.data
  stored.reading (Scan.classRecord.runAt classes offset)

def methodsOf (owner : ClassRecord) : ExceptT Error Trapping (List CodeRecord) := do
  if owner.methodsOffset = noOffset then return []
  else
    let codeRecords ← stored.places.codeRecords.cut stored.data
    stored.reading (Scan.countedRecords.runAtSigned codeRecords owner.methodsOffset)

def dependentsOf (target : ClassRecord) : ExceptT Error Trapping (List Nat) := do
  if target.dependentsOffset = noOffset then return []
  else
    let dependents ← stored.places.dependents.cut stored.data
    stored.reading do
      Library.nonNegative
        (← ExceptT.mk (Scan.int32List.runAtSigned dependents target.dependentsOffset))

def detailOf (record : CodeRecord) : ExceptT Error Trapping CodeDetail := do
  let codeDetails ← stored.places.codeDetails.cut stored.data
  stored.reading (Scan.codeDetail.runAtSigned codeDetails record.detailOffset)

def methodName (record : CodeRecord) : ExceptT Error Trapping MethodName := do
  let names ← stored.names.cut stored.data
  stored.reading (Scan.methodName.runAtSigned names record.nameOffset)

def stubRecords : ExceptT Error Trapping (List CodeRecord) :=
  stored.reading do
    let stubs ← stored.places.stubs.cut stored.data
    let offsets ← ExceptT.mk (Scan.int32List.run (Window.start stubs))
    offsets.mapM fun offset => do
      let codeRecords ← stored.places.codeRecords.cut stored.data
      ExceptT.mk (Scan.codeRecord.runAtSigned codeRecords offset)

def codeIdAt (offset : Nat) : ExceptT Error Trapping Int32 := do
  let code ← stored.places.code.cut stored.data
  stored.reading (Scan.int32.runAt code offset)

def poolName (offset : Int32) : ExceptT Error Trapping String := do
  let names ← stored.names.cut stored.data
  stored.reading (Scan.name.runAtSigned names offset)

/-- The text that a table of name offsets holds at an index. -/
def indexedName (place : Span) (index : Nat) : ExceptT Error Trapping String := do
  let table ← place.cut stored.data
  let offset ← mul index 4
  stored.poolName (← stored.reading (Scan.int32.runAt table offset))

def metaspaceName (index : Nat) : ExceptT Error Trapping String :=
  stored.indexedName stored.places.metaspaceNames index

def objectName (index : Nat) : ExceptT Error Trapping String :=
  stored.indexedName stored.places.objectNames index

def routines : ExceptT Error Trapping (List String) := do
  let routines ← stored.places.routines.cut stored.data
  let offsets ← stored.reading (Scan.int32List.run (Window.start routines))
  offsets.mapM stored.poolName

/-- The bytes of the segment map. -/
def segments : Trapping Bytes :=
  stored.places.segments.cut stored.data

/-- The size of the code as the symbol table gives it. -/
def codeSize : Nat :=
  stored.places.code.size

/-- Where the code lies: in a mapping of its own or inside the blob. -/
def base : Trapping Nat :=
  if stored.mapped then pure stored.codeBase
  else do
    let _ ← stored.places.code.cut stored.data
    return stored.codeBase

end Definitions

/-! ## No trap in a view -/

namespace Sound

variable {stored : Stored} (sound : stored.Sound)
include sound

theorem reading_ok {α : Type} {scan : Scan α} {decoder : Decoder α} (mirrors : scan.Mirrors decoder)
    (span : Span) (offset : Nat) :
    stored.reading (scan.runAt (span.content stored.data) offset) =
      .ok (stored.library.reading (decoder.runAt (span.content stored.data) offset)) := by
  rw [mirrors.runAt (span.content_small sound.small)]
  rfl

theorem readingSigned_ok {α : Type} {scan : Scan α} {decoder : Decoder α}
    (mirrors : scan.Mirrors decoder) (span : Span) (offset : Int32) :
    stored.reading (scan.runAtSigned (span.content stored.data) offset) =
      .ok (stored.library.reading (decoder.runAtSigned (span.content stored.data) offset)) := by
  rw [mirrors.runAtSigned (span.content_small sound.small)]
  rfl

theorem findClassRecord_ok (name : String) :
    stored.findClassRecord name = .ok (stored.library.findClassRecord name) := by
  have symbol : stored.library.symbol name = Library.findSymbol stored.symbols name := rfl
  rw [Stored.findClassRecord, Library.findClassRecord, symbol]
  cases Library.findSymbol stored.symbols name with
  | none => rfl
  | some exported =>
    obtain ⟨kind, offset, size⟩ := exported
    cases kind with
    | table => rfl
    | classRecord =>
      have read : stored.reading (Scan.classRecord.runAt stored.data offset) =
          .ok (stored.library.reading (ClassRecord.decode.runAt stored.library.bytes offset)) := by
        rw [Scan.classRecord_mirrors.runAt sound.small]
        rfl
      dsimp only
      rw [read]
      cases stored.library.reading (ClassRecord.decode.runAt stored.library.bytes offset) <;> rfl

theorem classRecord_ok {classId : Nat} (few : classId < 2 ^ 32) :
    stored.classRecord classId = .ok (stored.library.classRecord classId) := by
  rw [Stored.classRecord, evaluate_bind (mul_ok (by rw [classRecordSize]; omega)),
    evaluate_bind (Span.cut_ok sound.classes sound.small)]
  exact sound.reading_ok Scan.classRecord_mirrors _ _

theorem methodsOf_ok (owner : ClassRecord) :
    stored.methodsOf owner = .ok (stored.library.methodsOf owner) := by
  rw [Stored.methodsOf, Library.methodsOf]
  by_cases absent : owner.methodsOffset = noOffset
  · rw [if_pos absent, if_pos absent]
    rfl
  · rw [if_neg absent, if_neg absent, evaluate_bind (Span.cut_ok sound.codeRecords sound.small)]
    exact sound.readingSigned_ok Scan.countedRecords_mirrors _ _

theorem dependentsOf_ok (target : ClassRecord) :
    stored.dependentsOf target = .ok (stored.library.dependentsOf target) := by
  rw [Stored.dependentsOf, Library.dependentsOf]
  by_cases absent : target.dependentsOffset = noOffset
  · rw [if_pos absent, if_pos absent]
    rfl
  · rw [if_neg absent, if_neg absent, evaluate_bind (Span.cut_ok sound.dependents sound.small)]
    refine Evaluates.eq (inLibrary_evaluates ?_)
    have read := Scan.int32List_mirrors.runAtSigned
      (Span.content_small stored.places.dependents sound.small) target.dependentsOffset
    refine (Evaluates.of_eq read).bind ?_
    rintro codes _ - rfl
    exact .lift _

theorem detailOf_ok (record : CodeRecord) :
    stored.detailOf record = .ok (stored.library.detailOf record) := by
  rw [Stored.detailOf, evaluate_bind (Span.cut_ok sound.codeDetails sound.small)]
  exact sound.readingSigned_ok Scan.codeDetail_mirrors _ _

theorem methodName_ok (record : CodeRecord) :
    stored.methodName record = .ok (stored.library.methodName record) := by
  rw [Stored.methodName, evaluate_bind (Span.cut_ok sound.names sound.small)]
  exact sound.readingSigned_ok Scan.methodName_mirrors _ _

theorem stubRecords_ok : stored.stubRecords = .ok stored.library.stubRecords := by
  refine Evaluates.eq (inLibrary_evaluates ?_)
  rw [evaluate_bind (Span.cut_ok sound.stubs sound.small)]
  have read := Scan.int32List_mirrors.run_start (Span.content_small stored.places.stubs sound.small)
  refine (Evaluates.of_eq read).bind ?_
  rintro offsets _ - rfl
  refine Evaluates.mapM fun offset _ => ?_
  rw [evaluate_bind (Span.cut_ok sound.codeRecords sound.small)]
  exact .of_eq (Scan.codeRecord_mirrors.runAtSigned
    (Span.content_small stored.places.codeRecords sound.small) offset)

theorem codeIdAt_ok (offset : Nat) :
    stored.codeIdAt offset = .ok (stored.library.codeIdAt offset) := by
  rw [Stored.codeIdAt, evaluate_bind (Span.cut_ok sound.code sound.small)]
  exact sound.reading_ok Scan.int32_mirrors _ _

theorem poolName_ok (offset : Int32) :
    stored.poolName offset = .ok (stored.library.poolName offset) := by
  rw [Stored.poolName, evaluate_bind (Span.cut_ok sound.names sound.small)]
  exact sound.readingSigned_ok Scan.name_mirrors _ _

theorem indexedName_ok {place : Span} (within : place.Within stored.data) {index : Nat}
    (few : index < 2 ^ 32) :
    stored.indexedName place index =
      .ok (stored.library.indexedName (place.content stored.data) index) := by
  rw [Stored.indexedName, evaluate_bind (Span.cut_ok within sound.small),
    evaluate_bind (mul_ok (by omega))]
  refine Evaluates.eq ((Evaluates.of_eq (sound.reading_ok Scan.int32_mirrors _ _)).bind ?_)
  rintro offset _ - rfl
  exact .of_eq (sound.poolName_ok offset)

theorem metaspaceName_ok {index : Nat} (few : index < 2 ^ 32) :
    stored.metaspaceName index = .ok (stored.library.metaspaceName index) :=
  sound.indexedName_ok sound.metaspaceNames few

theorem objectName_ok {index : Nat} (few : index < 2 ^ 32) :
    stored.objectName index = .ok (stored.library.objectName index) :=
  sound.indexedName_ok sound.objectNames few

theorem routines_ok : stored.routines = .ok stored.library.routines := by
  rw [Stored.routines, evaluate_bind (Span.cut_ok sound.routines sound.small)]
  have read := Scan.int32List_mirrors.run_start
    (Span.content_small stored.places.routines sound.small)
  refine Evaluates.eq ((inLibrary_evaluates (.of_eq read)).bind ?_)
  rintro offsets _ - rfl
  exact Evaluates.mapM fun offset _ => .of_eq (sound.poolName_ok offset)

theorem segments_ok : stored.segments = .ok stored.library.contents.segments :=
  Span.cut_ok sound.segments sound.small

theorem codeSize_eq : stored.codeSize = stored.library.codeSize :=
  (Span.content_length sound.code).symm

theorem base_ok : stored.base = .ok stored.library.codeBase := by
  rw [Stored.base]
  by_cases mapped : stored.mapped = true
  · rw [if_pos mapped]
    rfl
  · rw [if_neg mapped, Span.cut_ok sound.code sound.small]
    rfl

end Sound

end Stored

/-! ## How long the lists of a view are -/

namespace Library

open Blob

variable {library : Library} {record : ClassRecord}

theorem nonNegative_length {values : List Int32} {numbers : List Nat}
    (read : nonNegative values = .ok numbers) : numbers.length = values.length := by
  induction values generalizing numbers with
  | nil =>
    cases read
    rfl
  | cons value rest ih =>
    rw [nonNegative] at read
    split at read
    · cases read
    · obtain ⟨others, onward, rfl⟩ := Outcome.map_ok.mp read
      rw [List.length_cons, List.length_cons, ih onward]

theorem dependentsOf_short {dependents : List Nat}
    (read : library.dependentsOf record = .ok dependents) : dependents.length < 2 ^ 31 := by
  rw [dependentsOf] at read
  split at read
  · cases read
    decide
  · obtain ⟨codes, listed, read⟩ := Outcome.bind_ok.mp (Outcome.mapError_ok.mp read)
    rw [nonNegative_length read]
    exact Decoder.yields_int32List.runAtSigned listed

theorem methodsOf_short {methods : List CodeRecord}
    (read : library.methodsOf record = .ok methods) : methods.length < 2 ^ 31 := by
  rw [methodsOf] at read
  split at read
  · cases read
    decide
  · exact Decoder.yields_countedRecords.runAtSigned (Outcome.mapError_ok.mp read)

end Library

end Precompiled
