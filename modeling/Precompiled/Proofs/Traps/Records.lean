import Precompiled.Library
import Precompiled.Proofs.Traps.Scan

/-! The records of a blob, scanned field by field. Each scan reads what the decoder of the
record reads, and so does a list of records behind its count. -/
namespace Precompiled.Blob

namespace Scan

variable {α : Type} {scan : Scan α} {decoder : Decoder α} {data : Bytes}

/-! ## At an offset -/

theorem Mirrors.run (mirrors : scan.Mirrors decoder) {window : Window} (inside : window.Inside) :
    scan.run window = .ok (decoder.run window.cursor) := by
  obtain ⟨after, -, -, scanned, -⟩ := mirrors window inside
  rw [Scan.run, scanned]
  rfl

theorem Mirrors.run_start (mirrors : scan.Mirrors decoder) (small : data.length < 2 ^ 63) :
    scan.run (Window.start data) = .ok (decoder.run (Cursor.start data)) :=
  mirrors.run ⟨Nat.zero_le _, small⟩

theorem Mirrors.runAt (mirrors : scan.Mirrors decoder) (small : data.length < 2 ^ 63)
    (offset : Nat) : scan.runAt data offset = .ok (decoder.runAt data offset) := by
  unfold Scan.runAt Window.at? Decoder.runAt Cursor.at?
  by_cases outside : data.length < offset
  · rw [if_pos outside, if_neg (Nat.not_le.mpr outside)]
    rfl
  · rw [if_neg outside, if_pos (Nat.le_of_not_lt outside)]
    exact mirrors.run ⟨Nat.le_of_not_lt outside, small⟩

theorem Mirrors.runAtSigned (mirrors : scan.Mirrors decoder) (small : data.length < 2 ^ 63)
    (offset : Int32) : scan.runAtSigned data offset = .ok (decoder.runAtSigned data offset) := by
  unfold Scan.runAtSigned Window.atSigned? Decoder.runAtSigned Cursor.atSigned?
  by_cases negative : offset < 0
  · rw [if_pos negative, if_pos negative]
    rfl
  · rw [if_neg negative, if_neg negative]
    exact mirrors.runAt small offset.toInt.toNat

/-! ## Records -/

def header : Scan Header := do
  let magic ← uint64
  let version ← uint32
  let classCount ← uint32
  let slotCount ← uint32
  let metaspaceSize ← uint32
  let metadataSize ← uint32
  let objectSize ← uint32
  let engineVersionOffset ← uint32
  let symbolsOffset ← uint32
  let symbolCount ← uint32
  let namesOffset ← uint32
  let namesSize ← uint32
  let checksum ← uint32
  return { magic, version, classCount, slotCount, metaspaceSize, metadataSize, objectSize,
           engineVersionOffset, symbolsOffset, symbolCount, namesOffset, namesSize, checksum }

theorem header_mirrors : header.Mirrors Header.decode :=
  uint64_mirrors.bind fun _ => uint32_mirrors.bind fun _ => uint32_mirrors.bind fun _ =>
    uint32_mirrors.bind fun _ => uint32_mirrors.bind fun _ => uint32_mirrors.bind fun _ =>
    uint32_mirrors.bind fun _ => uint32_mirrors.bind fun _ => uint32_mirrors.bind fun _ =>
    uint32_mirrors.bind fun _ => uint32_mirrors.bind fun _ => uint32_mirrors.bind fun _ =>
    uint32_mirrors.bind fun _ => mirrors_pure _

def settings : Scan BuildSettings := do
  let recordSize ← int32
  let narrowOopShift ← int32
  let narrowKlassShift ← int32
  let contendedPaddingWidth ← int32
  let fieldsAllocationStyle ← int32
  let objectAlignment ← int32
  let codeSegmentSize ← int32
  let debugVm ← flag
  let useCompressedOops ← flag
  let useCompressedClassPointers ← flag
  let compactFields ← flag
  let useG1Gc ← flag
  let useCmsGc ← flag
  let useTlab ← flag
  let useBiasedLocking ← flag
  let tieredAot ← flag
  let enableContended ← flag
  let restrictContended ← flag
  let omitAssertions ← flag
  let _ ← bytes settingsPadding
  return { recordSize, narrowOopShift, narrowKlassShift, contendedPaddingWidth,
           fieldsAllocationStyle, objectAlignment, codeSegmentSize, debugVm, useCompressedOops,
           useCompressedClassPointers, compactFields, useG1Gc, useCmsGc, useTlab,
           useBiasedLocking, tieredAot, enableContended, restrictContended, omitAssertions }

theorem settings_mirrors : settings.Mirrors BuildSettings.decode :=
  int32_mirrors.bind fun _ => int32_mirrors.bind fun _ => int32_mirrors.bind fun _ =>
    int32_mirrors.bind fun _ => int32_mirrors.bind fun _ => int32_mirrors.bind fun _ =>
    int32_mirrors.bind fun _ => flag_mirrors.bind fun _ => flag_mirrors.bind fun _ =>
    flag_mirrors.bind fun _ => flag_mirrors.bind fun _ => flag_mirrors.bind fun _ =>
    flag_mirrors.bind fun _ => flag_mirrors.bind fun _ => flag_mirrors.bind fun _ =>
    flag_mirrors.bind fun _ => flag_mirrors.bind fun _ => flag_mirrors.bind fun _ =>
    flag_mirrors.bind fun _ => (bytes_mirrors _).bind fun _ => mirrors_pure _

def symbolEntry : Scan SymbolEntry := do
  let nameOffset ← uint32
  let kindOffset ← position
  match SymbolKind.ofCode? (← uint32) with
  | none => fail (.invalidOffset kindOffset)
  | some kind =>
    let offset ← uint32
    let size ← uint32
    return { nameOffset, kind, offset, size }

theorem symbolEntry_mirrors : symbolEntry.Mirrors SymbolEntry.decode := by
  refine uint32_mirrors.bind fun nameOffset => position_mirrors.bind fun kindOffset => ?_
  refine uint32_mirrors.bind fun code => ?_
  cases SymbolKind.ofCode? code with
  | none => exact mirrors_fail _
  | some kind => exact uint32_mirrors.bind fun _ => uint32_mirrors.bind fun _ => mirrors_pure _

def classRecord : Scan ClassRecord := do
  let gotIndex ← int32
  let classId ← int32
  let methodsOffset ← int32
  let dependentsOffset ← int32
  let fingerprint ← uint64
  return { gotIndex, classId, methodsOffset, dependentsOffset, fingerprint }

theorem classRecord_mirrors : classRecord.Mirrors ClassRecord.decode :=
  int32_mirrors.bind fun _ => int32_mirrors.bind fun _ => int32_mirrors.bind fun _ =>
    int32_mirrors.bind fun _ => uint64_mirrors.bind fun _ => mirrors_pure _

def codeRecord : Scan CodeRecord := do
  let nameOffset ← int32
  let codeOffset ← int32
  let detailOffset ← int32
  let metadataStart ← int32
  let metadataCount ← int32
  let codeId ← int32
  return { nameOffset, codeOffset, detailOffset, metadataStart, metadataCount, codeId }

theorem codeRecord_mirrors : codeRecord.Mirrors CodeRecord.decode :=
  int32_mirrors.bind fun _ => int32_mirrors.bind fun _ => int32_mirrors.bind fun _ =>
    int32_mirrors.bind fun _ => int32_mirrors.bind fun _ => int32_mirrors.bind fun _ =>
    mirrors_pure _

def codeDetail : Scan CodeDetail := do
  let codeSize ← uint32
  let entryOffset ← uint32
  let verifiedEntryOffset ← uint32
  let frameSize ← uint32
  let metadataNames ← int32List
  let classRefs ← uint32List
  let objectRefs ← uint32List
  return { codeSize, entryOffset, verifiedEntryOffset, frameSize, metadataNames, classRefs,
           objectRefs }

theorem codeDetail_mirrors : codeDetail.Mirrors CodeDetail.decode :=
  uint32_mirrors.bind fun _ => uint32_mirrors.bind fun _ => uint32_mirrors.bind fun _ =>
    uint32_mirrors.bind fun _ => int32List_mirrors.bind fun _ => uint32List_mirrors.bind fun _ =>
    uint32List_mirrors.bind fun _ => mirrors_pure _

/-! ## Behind a count, and names -/

def countedRecords : Scan (List CodeRecord) := do
  let count ← int32
  if count < 0 then fail (.invalidOffset count.toInt)
  else codeRecord.times count.toInt.toNat

theorem countedRecords_mirrors : countedRecords.Mirrors Library.countedRecords := by
  refine int32_mirrors.bind fun count => ?_
  split
  · exact mirrors_fail _
  · exact times_mirrors codeRecord_mirrors _

def methodName : Scan MethodName := do
  let holder ← name
  let name ← name
  let signature ← Scan.name
  return { holder, name, signature }

theorem methodName_mirrors : methodName.Mirrors Library.decodeMethodName :=
  name_mirrors.bind fun _ => name_mirrors.bind fun _ => name_mirrors.bind fun _ => mirrors_pure _

end Scan

/-! ## How long lists are -/

namespace Decoder

variable {α β : Type} {decoder : Decoder α}

theorem Yields.bind {known : α → Prop} {property : β → Prop} {next : α → Decoder β}
    (first : decoder.Yields known) (onward : ∀ value, known value → (next value).Yields property) :
    (decoder >>= next).Yields property := by
  intro cursor result read
  have yields := first cursor
  rw [run] at read yields
  simp only [Bind.bind] at read
  generalize decoder cursor = outcome at read yields
  obtain ⟨outcome, after⟩ := outcome
  cases outcome with
  | error error => cases read
  | ok value => exact onward value (yields value rfl) after result read

theorem yields_pure {property : α → Prop} {value : α} (known : property value) :
    (pure value : Decoder α).Yields property := by
  rintro cursor _ ⟨⟩
  exact known

theorem yields_fail {property : α → Prop} (error : DecodeError) :
    (fail error : Decoder α).Yields property := by
  rintro cursor value ⟨⟩

theorem yields_times (decoder : Decoder α) (count : Nat) :
    (decoder.times count).Yields fun items => items.length = count := by
  induction count with
  | zero => exact yields_pure rfl
  | succ count ih =>
    refine (yields_any decoder).bind fun first _ => ih.bind fun rest whole => yields_pure ?_
    rw [List.length_cons, whole]

/-- No signed word stands for more. -/
theorem toNat_small (value : Int32) : value.toInt.toNat < 2 ^ 31 := by
  have := value.toInt_lt
  omega

theorem yields_count : count.Yields (· < 2 ^ 31) := by
  refine (yields_any position).bind fun offset _ => (yields_any int32).bind fun value _ => ?_
  split
  · exact yields_fail _
  · refine (yields_any remaining).bind fun left _ => ?_
    split
    · exact yields_fail _
    · exact yields_pure (toNat_small value)

theorem yields_int32List : int32List.Yields fun items => items.length < 2 ^ 31 :=
  yields_count.bind fun count few cursor items read =>
    Nat.lt_of_le_of_lt (Nat.le_of_eq (yields_times int32 count cursor items read)) few

theorem yields_countedRecords : Library.countedRecords.Yields fun items => items.length < 2 ^ 31 := by
  refine (yields_any int32).bind fun count _ => ?_
  split
  · exact yields_fail _
  · exact fun cursor items read =>
      Nat.lt_of_le_of_lt (Nat.le_of_eq (yields_times CodeRecord.decode _ cursor items read))
        (toNat_small count)

theorem Yields.runAtSigned {property : α → Prop} {data : Bytes} {offset : Int32} {value : α}
    (yields : decoder.Yields property) (read : decoder.runAtSigned data offset = .ok value) :
    property value := by
  obtain ⟨cursor, -, read⟩ := Outcome.bind_ok.mp read
  exact yields cursor value read

end Decoder

end Precompiled.Blob
