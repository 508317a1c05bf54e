import Precompiled.Proofs.Blob.Codec
import Precompiled.Proofs.Outcome

/-! Writing what a decoder understood. A value determines the bytes it was read
from: every step of a record decoder accounts for what it consumed, so writing a
decoded record again gives back the bytes, apart from padding, at which no
decoder looks. -/
namespace Precompiled

theorem textBytes_textOfBytes {bytes : Bytes} (known : textOfBytes? bytes = some text) :
    textBytes text = bytes := by
  simp only [textOfBytes?, String.fromUTF8?] at known
  split at known
  next valid =>
    cases known
    simp [textBytes, String.fromUTF8]
  next => cases known

end Precompiled

namespace Precompiled.Blob.Decoder

/-- Whenever the decoder succeeds, what it consumed, behind the bytes in `front`,
is related to the value by `written`. -/
def Consumes (decoder : Decoder α) (front : Bytes) (written : α → Bytes → Prop) : Prop :=
  ∀ ⦃cursor value after⦄, decoder cursor = (.ok value, after) →
    ∃ chunk, cursor.rest = chunk ++ after.rest ∧
      after.position = cursor.position + chunk.length ∧ written value (front ++ chunk)

theorem bind_succeeds {first : Decoder α} {next : α → Decoder β}
    (both : (first >>= next) cursor = (.ok result, after)) :
    ∃ value middle, first cursor = (.ok value, middle) ∧
      next value middle = (.ok result, after) := by
  cases ran : first cursor with
  | mk outcome middle =>
    cases outcome with
    | error error => simp [bind, ran] at both
    | ok value => exact ⟨value, middle, rfl, by rwa [bind_ok ran] at both⟩

theorem Consumes.pure {value : α} (holds : written value front) :
    Consumes (pure value) front written := by
  rintro cursor _ _ ⟨⟩
  exact ⟨[], rfl, rfl, by rwa [List.append_nil]⟩

theorem Consumes.fail : Consumes (fail error) front written := by
  rintro cursor _ _ ⟨⟩

/-- A sequence consumes what its first step consumed and then what the others
did, with the first piece in front of them. -/
theorem Consumes.bind {decoder : Decoder α} {next : α → Decoder β}
    (first : Consumes decoder [] kept)
    (rest : ∀ value piece, kept value piece → Consumes (next value) (front ++ piece) written) :
    Consumes (decoder >>= next) front written := by
  intro cursor result after both
  obtain ⟨value, middle, one, two⟩ := bind_succeeds both
  obtain ⟨piece, split, moved, holds⟩ := first one
  obtain ⟨others, splitOthers, movedOthers, whole⟩ := rest value piece holds two
  refine ⟨piece ++ others, ?_, ?_, ?_⟩
  · rw [split, splitOthers, List.append_assoc]
  · rw [movedOthers, moved, List.length_append, Nat.add_assoc]
  · rwa [← List.append_assoc]

theorem Consumes.at_position {next : Nat → Decoder α}
    (rest : ∀ offset, Consumes (next offset) front written) :
    Consumes (position >>= next) front written := by
  intro cursor value after ran
  exact rest cursor.position ran

theorem Consumes.with_remaining {next : Nat → Decoder α}
    (rest : ∀ left, Consumes (next left) front written) :
    Consumes (remaining >>= next) front written := by
  intro cursor value after ran
  exact rest cursor.remaining ran

theorem Consumes.either {condition : Prop} [Decidable condition] {first second : Decoder α}
    (met : condition → Consumes first front written)
    (unmet : ¬condition → Consumes second front written) :
    Consumes (if condition then first else second) front written := by
  split
  next holds => exact met holds
  next fails => exact unmet fails

theorem Consumes.behind {decoder : Decoder α} (consumes : Consumes decoder [] kept)
    (whole : ∀ value chunk, kept value chunk → written value (front ++ chunk)) :
    Consumes decoder front written := by
  intro cursor value after ran
  obtain ⟨chunk, split, moved, holds⟩ := consumes ran
  exact ⟨chunk, split, moved, whole _ _ holds⟩

/-- A step whose value is the function `write` of nothing but what it read. -/
theorem Consumes.step {decoder : Decoder α} {next : α → Decoder β} {write : α → Bytes}
    (first : Consumes decoder [] fun value chunk => chunk = write value)
    (rest : ∀ value, Consumes (next value) (front ++ write value) written) :
    Consumes (decoder >>= next) front written :=
  first.bind fun value _ piece => piece ▸ rest value

theorem Consumes.last {decoder : Decoder α} {view : α → β} {write : α → Bytes}
    (first : Consumes decoder [] fun value chunk => chunk = write value)
    (whole : ∀ value, written (view value) (front ++ write value)) :
    Consumes (decoder >>= fun value => Pure.pure (view value)) front written :=
  first.step fun value => .pure (whole value)

/-! ## Words -/

theorem consumes_bytes (count : Nat) :
    Consumes (bytes count) [] fun value chunk => chunk = value ∧ value.length = count := by
  intro cursor value after ran
  simp only [bytes] at ran
  split at ran
  next enough =>
    obtain ⟨⟨rfl⟩, rfl⟩ := Prod.mk.inj ran
    exact ⟨cursor.rest.take count, (List.take_append_drop ..).symm, by rw [enough], rfl, enough⟩
  next => cases (Prod.mk.inj ran).1

theorem consumes_natural (width : Nat) :
    Consumes (natural width) [] fun value chunk =>
      chunk = littleEndian width value ∧ value < 256 ^ width := by
  refine (consumes_bytes width).bind fun chunk piece same => .pure ?_
  obtain ⟨rfl, rfl⟩ := same
  exact ⟨(littleEndian_ofLittleEndian piece).symm, ofLittleEndian_lt piece⟩

theorem consumes_uint8 : Consumes uint8 [] fun value chunk => chunk = [value] := by
  refine (consumes_natural 1).bind fun value chunk same => .pure ?_
  exact same.1

theorem consumes_uint32 : Consumes uint32 [] fun value chunk => chunk = word32 value := by
  refine (consumes_natural 4).bind fun value chunk same => .pure ?_
  rw [word32, UInt32.toNat_ofNat_of_lt' same.2]
  exact same.1

theorem consumes_uint64 : Consumes uint64 [] fun value chunk => chunk = word64 value := by
  refine (consumes_natural 8).bind fun value chunk same => .pure ?_
  rw [word64, UInt64.toNat_ofNat_of_lt' same.2]
  exact same.1

theorem consumes_int32 : Consumes int32 [] fun value chunk => chunk = signed32 value := by
  refine consumes_uint32.last fun value => ?_
  rw [signed32, UInt32.toUInt32_toInt32]
  rfl

theorem consumes_flag : Consumes flag [] fun value chunk => chunk = flagByte value := by
  refine .at_position fun offset => consumes_uint8.step fun value => ?_
  refine .either (fun zero => .pure ?_) fun _ => .either (fun one => .pure ?_) fun _ => .fail
  · rw [zero]; rfl
  · rw [one]; rfl

/-! ## Texts -/

theorem consumes_uint16 : Consumes uint16 [] fun value chunk => chunk = word16 value := by
  refine (consumes_natural 2).bind fun value chunk same => .pure ?_
  rw [word16, UInt16.toNat_ofNat_of_lt' same.2]
  exact same.1

theorem consumes_text (count : Nat) :
    Consumes (text count) [] fun value chunk =>
      chunk = textBytes value ∧ (textBytes value).length = count := by
  refine .at_position fun offset => (consumes_bytes count).bind fun chunk piece same => ?_
  obtain ⟨rfl, length⟩ := same
  cases known : textOfBytes? piece with
  | none => exact .fail
  | some value =>
    have whole := textBytes_textOfBytes known
    exact .pure ⟨whole.symm, whole ▸ length⟩

/-- A name that was read is one whose count is exact. -/
theorem consumes_name :
    Consumes name [] fun value chunk =>
      (textBytes value).length ≤ maxNameBytes ∧ chunk = nameBytes value := by
  refine consumes_uint16.step fun count => (consumes_text count.toNat).behind ?_
  rintro value _ ⟨rfl, length⟩
  have short : (textBytes value).length ≤ maxNameBytes := length ▸ Nat.le_of_lt_succ count.toNat_lt
  refine ⟨short, ?_⟩
  simp only [nameBytes, List.take_of_length_le short, length, UInt16.ofNat_toNat, List.nil_append]

/-- What follows the bytes before the first zero starts with that zero. -/
theorem split_at_zero {bytes rest : Bytes}
    (left : bytes.drop (bytes.takeWhile (· ≠ 0)).length = byte :: rest) :
    bytes = bytes.takeWhile (· ≠ 0) ++ 0 :: rest := by
  have split : bytes.takeWhile (· ≠ 0) ++ bytes.dropWhile (· ≠ 0) = bytes :=
    List.takeWhile_append_dropWhile
  have onward : bytes.dropWhile (· ≠ 0) = byte :: rest := by
    rw [← left]
    conv => rhs; arg 2; rw [← split]
    exact List.drop_left.symm
  have first := List.head?_dropWhile_not (fun value : UInt8 => decide (value ≠ 0)) bytes
  rw [onward] at first
  obtain rfl : byte = 0 := by simpa using first
  rw [← onward, split]

/-- A text up to a zero byte is read to the first one. -/
theorem consumes_cString :
    Consumes cString [] fun value chunk =>
      0 ∉ textBytes value ∧ chunk = textBytes value ++ [0] := by
  intro cursor value after ran
  simp only [cString] at ran
  split at ran
  next => cases (Prod.mk.inj ran).1
  next byte rest left =>
    split at ran
    next text known =>
      obtain ⟨⟨rfl⟩, rfl⟩ := Prod.mk.inj ran
      have whole := textBytes_textOfBytes known
      refine ⟨cursor.rest.takeWhile (· ≠ 0) ++ [0], ?_, ?_, ?_, ?_⟩
      · rw [List.append_assoc]
        exact split_at_zero left
      · rw [List.length_append]
        rfl
      · intro zero
        rw [whole] at zero
        simpa using List.all_eq_true.mp List.all_takeWhile 0 zero
      · rw [whole]
        rfl
    next => cases (Prod.mk.inj ran).1

/-! ## Lists -/

theorem consumes_times {decoder : Decoder α} {write : α → Bytes}
    (each : Consumes decoder [] fun value chunk => chunk = write value) (count : Nat) :
    Consumes (times decoder count) [] fun items chunk =>
      chunk = items.flatMap write ∧ items.length = count := by
  induction count with
  | zero => exact .pure ⟨rfl, rfl⟩
  | succ count ih =>
    refine each.step fun first => ih.bind fun rest chunk same => .pure ?_
    obtain ⟨rfl, rfl⟩ := same
    exact ⟨by rw [List.nil_append, List.flatMap_cons], List.length_cons⟩

theorem consumes_count :
    Consumes count [] fun length chunk => chunk = word32 (UInt32.ofNat length) := by
  refine .at_position fun offset => consumes_int32.step fun value => ?_
  refine .either (fun _ => .fail) fun nonneg => .with_remaining fun left =>
    .either (fun _ => .fail) fun _ => .pure ?_
  have natural : 0 ≤ value.toInt := by simpa [Int32.lt_iff_toInt_lt] using nonneg
  have same : Int32.ofNat value.toInt.toNat = value := by
    rw [← Int32.ofInt_eq_ofNat, Int.toNat_of_nonneg natural, Int32.ofInt_toInt]
  exact congrArg signed32 same.symm

/-- A counted list determines its bytes, the count included. -/
theorem consumes_counted {decoder : Decoder α} {write : α → Bytes}
    (each : Consumes decoder [] fun value chunk => chunk = write value) :
    Consumes (count >>= times decoder) [] fun items chunk =>
      chunk = word32 (UInt32.ofNat items.length) ++ items.flatMap write := by
  refine consumes_count.step fun length => (consumes_times each length).behind ?_
  rintro items _ ⟨rfl, rfl⟩
  rfl

theorem consumes_int32List :
    Consumes int32List [] fun items chunk => chunk = signed32List items :=
  consumes_counted consumes_int32

theorem consumes_uint32List :
    Consumes uint32List [] fun items chunk => chunk = word32List items :=
  consumes_counted consumes_uint32

/-! ## Enough bytes -/

/-- The decoder succeeds on any `size` bytes that satisfy `fit`, whatever follows
them, and takes exactly those. -/
def Takes (decoder : Decoder α) (size : Nat) (fit : Bytes → Prop) : Prop :=
  ∀ position chunk rest, chunk.length = size → fit chunk →
    ∃ value, decoder ⟨position, chunk ++ rest⟩ = (.ok value, ⟨position + size, rest⟩)

theorem Takes.bind {decoder : Decoder α} {next : α → Decoder β}
    (first : Takes decoder size fit) (others : ∀ value, Takes (next value) left onward)
    (split : ∀ chunk, whole chunk → fit (chunk.take size) ∧ onward (chunk.drop size)) :
    Takes (decoder >>= next) (left + size) whole := by
  intro position chunk rest length fits
  obtain ⟨front, back⟩ := split chunk fits
  obtain ⟨value, one⟩ := first position (chunk.take size) (chunk.drop size ++ rest)
    (by rw [List.length_take]; omega) front
  obtain ⟨result, two⟩ := others value (position + size) (chunk.drop size) rest
    (by rw [List.length_drop]; omega) back
  rw [← List.append_assoc, List.take_append_drop] at one
  exact ⟨result, by rw [bind_ok one, two, Nat.add_assoc, Nat.add_comm size]⟩

theorem Takes.view {decoder : Decoder α} (takes : Takes decoder size fit) (view : α → β) :
    Takes (decoder >>= fun value => Pure.pure (view value)) size fit := by
  intro position chunk rest length fits
  obtain ⟨value, ran⟩ := takes position chunk rest length fits
  exact ⟨view value, bind_ok ran⟩

theorem Takes.mono {decoder : Decoder α} (takes : Takes decoder size fit)
    (stronger : ∀ chunk, chunk.length = size → met chunk → fit chunk) :
    Takes decoder size met :=
  fun position chunk rest length holds =>
    takes position chunk rest length (stronger chunk length holds)

theorem takes_bytes (size : Nat) : Takes (bytes size) size fun _ => True := by
  rintro position chunk rest rfl -
  exact ⟨chunk, reads_bytes chunk position rest⟩

theorem takes_uint32 : Takes uint32 4 fun _ => True :=
  ((takes_bytes 4).view _).view _

theorem takes_int32 : Takes int32 4 fun _ => True :=
  takes_uint32.view _

theorem takes_uint64 : Takes uint64 8 fun _ => True :=
  ((takes_bytes 8).view _).view _

/-- The `number` bytes behind the first `skipped` ones are zero or one. -/
def FlagsAt (skipped number : Nat) (chunk : Bytes) : Prop :=
  ∀ byte ∈ (chunk.drop skipped).take number, byte = 0 ∨ byte = 1

/-- Bytes behind the flags do not matter. -/
theorem flagsAt_append {chunk : Bytes} (rest : Bytes) (reaches : skipped + number ≤ chunk.length) :
    FlagsAt skipped number (chunk ++ rest) ↔ FlagsAt skipped number chunk := by
  rw [FlagsAt, FlagsAt, List.drop_append_of_le_length (by omega),
    List.take_append_of_le_length (by rw [List.length_drop]; omega)]

theorem Takes.skip {decoder : Decoder α} {next : α → Decoder β}
    (first : Takes decoder size fun _ => True)
    (others : ∀ value, Takes (next value) left (FlagsAt skipped number)) :
    Takes (decoder >>= next) (left + size) (FlagsAt (skipped + size) number) := by
  refine first.bind others fun chunk flags => ⟨trivial, ?_⟩
  rwa [FlagsAt, List.drop_drop, Nat.add_comm]

theorem takes_flag : Takes flag 1 (FlagsAt 0 1) := by
  intro position chunk rest length flags
  obtain ⟨byte, rfl⟩ := List.length_eq_one_iff.mp length
  rcases flags byte (by simp) with rfl | rfl
  · exact ⟨false, rfl⟩
  · exact ⟨true, rfl⟩

theorem Takes.flag {next : Bool → Decoder α}
    (others : ∀ value, Takes (next value) left (FlagsAt 0 number)) :
    Takes (flag >>= next) (left + 1) (FlagsAt 0 (number + 1)) := by
  refine takes_flag.bind others fun chunk flags => ?_
  cases chunk with
  | nil => simp [FlagsAt]
  | cons byte rest =>
    simp only [FlagsAt, List.drop_zero, List.take_succ_cons, List.mem_cons,
      forall_eq_or_imp] at flags
    simpa [FlagsAt] using flags

end Precompiled.Blob.Decoder

/-! ## Records -/

namespace Precompiled.Blob

open Decoder

theorem Header.decode_consumes : Consumes decode [] fun header chunk => chunk = header.encode := by
  refine consumes_uint64.step fun magic => ?_
  iterate 11 refine consumes_uint32.step fun _ => ?_
  exact consumes_uint32.last fun _ => rfl

/-- What is kept of a settings record: everything but the padding. -/
def withoutPadding (chunk : Bytes) : Bytes :=
  chunk.take (settingsSize - settingsPadding) ++ List.replicate settingsPadding 0

theorem withoutPadding_append (fields padding : Bytes)
    (length : fields.length = settingsSize - settingsPadding) :
    withoutPadding (fields ++ padding) = fields ++ List.replicate settingsPadding 0 := by
  rw [withoutPadding, List.take_left' length]

theorem BuildSettings.decode_consumes :
    Consumes decode [] fun settings chunk =>
      chunk.length = settingsSize ∧ withoutPadding chunk = settings.encode := by
  iterate 7 refine consumes_int32.step fun _ => ?_
  iterate 12 refine consumes_flag.step fun _ => ?_
  refine (consumes_bytes settingsPadding).bind fun padding piece same => .pure ?_
  obtain ⟨rfl, width⟩ := same
  refine ⟨?_, withoutPadding_append _ _ ?_⟩ <;>
    simp only [List.length_append, List.length_nil, signed32_length, flagByte_length, width,
      settingsPadding, settingsSize]

/-- Any bytes of the right number are a header. -/
theorem Header.decode_takes : Takes decode headerSize fun _ => True := by
  have flagless : Takes decode headerSize (FlagsAt headerSize 0) := by
    refine takes_uint64.skip fun magic => ?_
    iterate 11 refine takes_uint32.skip fun _ => ?_
    exact (takes_uint32.view _).mono fun _ _ _ => trivial
  exact flagless.mono fun chunk _ _ => by simp [FlagsAt]

theorem flagByte_value (value : Bool) :
    (if value then 1 else 0 : UInt8) = 0 ∨ (if value then 1 else 0 : UInt8) = 1 := by
  cases value <;> simp

theorem BuildSettings.encode_flags (settings : BuildSettings) : FlagsAt 28 12 settings.encode := by
  have skip : ∀ (word : Int32) (number : Nat) (rest : Bytes),
      (signed32 word ++ rest).drop (number + 4) = rest.drop number := by
    intro word number rest
    rw [Nat.add_comm, ← List.drop_drop, List.drop_left' (signed32_length word)]
  unfold FlagsAt encode
  simp only [List.append_assoc]
  iterate 7 rw [skip]
  simp only [flagByte, List.drop_zero, List.cons_append, List.nil_append, List.take_succ_cons,
    List.take_zero, List.mem_cons, List.not_mem_nil, or_false]
  intro byte member
  repeat' rcases member with rfl | member
  all_goals exact flagByte_value _

/-- The padding is behind the flags. -/
theorem flagsAt_withoutPadding {chunk : Bytes} (length : chunk.length = settingsSize) :
    FlagsAt 28 12 (withoutPadding chunk) ↔ FlagsAt 28 12 chunk := by
  have short : (chunk.take (settingsSize - settingsPadding)).length = 40 := by
    rw [List.length_take, length]
    rfl
  rw [withoutPadding, flagsAt_append _ (by omega)]
  conv => rhs; rw [← List.take_append_drop (settingsSize - settingsPadding) chunk]
  exact (flagsAt_append _ (by omega)).symm

/-- Settings are decoded from any bytes whose flags are flags. -/
theorem BuildSettings.decode_takes : Takes decode settingsSize (FlagsAt 28 12) := by
  iterate 7 refine takes_int32.skip fun _ => ?_
  iterate 12 refine Takes.flag fun _ => ?_
  exact ((takes_bytes settingsPadding).view _).mono fun _ _ _ => trivial

theorem SymbolEntry.decode_consumes :
    Consumes decode [] fun entry chunk => chunk = entry.encode := by
  refine consumes_uint32.step fun nameOffset => .at_position fun kindOffset =>
    consumes_uint32.step fun code => ?_
  cases known : SymbolKind.ofCode? code with
  | none => exact .fail
  | some kind =>
    have same : code = kind.code := by
      simp only [SymbolKind.ofCode?] at known
      split at known
      next table => cases known; exact table
      next =>
        split at known
        next record => cases known; exact record
        next => cases known
    subst same
    exact consumes_uint32.step fun offset => consumes_uint32.last fun size => rfl

theorem ClassRecord.decode_consumes :
    Consumes decode [] fun record chunk => chunk = record.encode := by
  iterate 4 refine consumes_int32.step fun _ => ?_
  exact consumes_uint64.last fun _ => rfl

theorem CodeRecord.decode_consumes :
    Consumes decode [] fun record chunk => chunk = record.encode := by
  iterate 5 refine consumes_int32.step fun _ => ?_
  exact consumes_int32.last fun _ => rfl

theorem CodeDetail.decode_consumes :
    Consumes decode [] fun detail chunk => chunk = detail.encode := by
  iterate 4 refine consumes_uint32.step fun _ => ?_
  refine consumes_int32List.step fun metadataNames => ?_
  refine consumes_uint32List.step fun classRefs => ?_
  exact consumes_uint32List.last fun objectRefs => rfl

/-! ## Both ways -/

theorem cursor_ok {data : Bytes} : Cursor.at? data offset = .ok cursor ↔
    offset ≤ data.length ∧ ⟨offset, data.drop offset⟩ = cursor := by
  unfold Cursor.at?
  split
  next inside => simp [inside]
  next outside => simp [outside]

theorem holds_iff {data content : Bytes} :
    Holds data offset content ↔ offset ≤ data.length ∧ content <+: data.drop offset := by
  constructor
  · rintro ⟨before, after, rfl, rfl⟩
    exact ⟨by simp, after, by simp⟩
  · rintro ⟨bound, rest, split⟩
    refine ⟨data.take offset, rest, ?_, List.length_take_of_le bound⟩
    rw [List.append_assoc, split, List.take_append_drop]

/-- Decoding inside a byte string leaves a cursor of the same byte string, right
behind what was consumed. -/
theorem Decoder.Consumes.inside {decoder : Decoder α} (consumes : Consumes decoder [] written)
    (found : Cursor.at? data offset = .ok cursor) (ran : decoder cursor = (.ok value, later)) :
    ∃ chunk, data.drop offset = chunk ++ later.rest ∧ written value chunk ∧
      later.position = offset + chunk.length ∧ Cursor.at? data later.position = .ok later := by
  obtain ⟨bound, rfl⟩ := cursor_ok.mp found
  obtain ⟨chunk, split, moved, holds⟩ := consumes ran
  have split : data.drop offset = chunk ++ later.rest := split
  have place : later.position = offset + chunk.length := moved
  have length := congrArg List.length split
  rw [List.length_drop, List.length_append] at length
  refine ⟨chunk, split, holds, place, cursor_ok.mpr ⟨by omega, ?_⟩⟩
  rw [place, ← List.drop_drop, split, List.drop_left, ← place]

/-- What was decoded from a start is what the data begin with. -/
theorem Decoder.Consumes.prefix_of_start {decoder : Decoder α}
    (consumes : Consumes decoder [] written) (ran : decoder.run (Cursor.start data) = .ok value) :
    ∃ chunk, written value chunk ∧ chunk <+: data := by
  obtain ⟨chunk, split, -, holds⟩ := consumes (Prod.ext ran rfl)
  exact ⟨chunk, holds, _, split.symm⟩

/-- What was decoded at a place stands there. -/
theorem Decoder.Consumes.holds {decoder : Decoder α} (consumes : Consumes decoder [] written)
    (ran : decoder.runAt data offset = .ok value) :
    ∃ chunk, written value chunk ∧ Holds data offset chunk := by
  simp only [Decoder.runAt, Outcome.bind_ok] at ran
  obtain ⟨cursor, found, ran⟩ := ran
  obtain ⟨chunk, split, holds, -⟩ := consumes.inside found (Prod.ext ran rfl)
  exact ⟨chunk, holds, holds_iff.mpr ⟨(cursor_ok.mp found).1, _, split.symm⟩⟩

theorem name_runAt {data : Bytes} {offset : Nat} {text : String} :
    Decoder.name.runAt data offset = .ok text ↔
      (textBytes text).length ≤ maxNameBytes ∧ Holds data offset (nameBytes text) := by
  constructor
  · intro ran
    obtain ⟨_, ⟨short, rfl⟩, holds⟩ := consumes_name.holds ran
    exact ⟨short, holds⟩
  · rintro ⟨short, holds⟩
    exact holds.runAt (reads_name short)

theorem cString_runAt {data : Bytes} {offset : Nat} {text : String} :
    Decoder.cString.runAt data offset = .ok text ↔
      0 ∉ textBytes text ∧ Holds data offset (textBytes text ++ [0]) := by
  constructor
  · intro ran
    obtain ⟨_, ⟨clean, rfl⟩, holds⟩ := consumes_cString.holds ran
    exact ⟨clean, holds⟩
  · rintro ⟨clean, holds⟩
    obtain ⟨after, found⟩ := holds.cursor
    simp only [Decoder.runAt, found, Outcome.ok_bind, reads_cString, beforeZero_eq clean]

/-- Encoding and decoding undo each other wherever the record stands. A value
that fits the format is recovered from what was written, whatever surrounds it,
and the cursor is left right behind the record. A record that was understood is
written again as the bytes it was read from, seen through `kept`. -/
structure Inverse (decode : Decoder α) (encode : α → Bytes) (fits : α → Prop)
    (kept : Bytes → Bytes) : Prop where
  recovers : ∀ value, fits value → ∀ before after, ∃ cursor,
    Cursor.at? (before ++ encode value ++ after) before.length = .ok cursor ∧
    decode cursor = (.ok value, ⟨before.length + (encode value).length, after⟩)
  reproduces : ∀ data offset cursor value later, Cursor.at? data offset = .ok cursor →
    decode cursor = (.ok value, later) →
      later.position = offset + (encode value).length ∧
      Cursor.at? data later.position = .ok later ∧
      encode value = kept ((data.drop offset).take (encode value).length)

theorem Inverse.of_kept {decode : Decoder α} {encode : α → Bytes} {fits : α → Prop}
    {kept : Bytes → Bytes} (reads : ∀ value, fits value → Reads decode (encode value) value)
    (consumes : Consumes decode [] fun value chunk =>
      chunk.length = (encode value).length ∧ kept chunk = encode value) :
    Inverse decode encode fits kept where
  recovers := by
    intro value fit before after
    refine ⟨⟨before.length, encode value ++ after⟩, ?_, reads value fit _ _⟩
    rw [Cursor.at?, List.append_assoc, List.drop_left, if_pos (by simp)]
  reproduces := by
    intro data offset cursor value later found ran
    obtain ⟨chunk, split, ⟨length, same⟩, moved, still⟩ := consumes.inside found ran
    refine ⟨by rw [moved, length], still, ?_⟩
    rw [← length, split, List.take_left, same]

theorem Inverse.of_whole {decode : Decoder α} {encode : α → Bytes} {fits : α → Prop}
    (reads : ∀ value, fits value → Reads decode (encode value) value)
    (consumes : Consumes decode [] fun value chunk => chunk = encode value) :
    Inverse decode encode fits id :=
  .of_kept reads <| consumes.behind fun _ _ same => ⟨congrArg List.length same, same⟩

/-- All six records. The lists of a detail have to be short enough for their
counts, and the padding of the settings is not kept. -/
theorem codecs_inverse :
    Inverse Header.decode Header.encode (fun _ => True) id ∧
    Inverse BuildSettings.decode BuildSettings.encode (fun _ => True) withoutPadding ∧
    Inverse SymbolEntry.decode SymbolEntry.encode (fun _ => True) id ∧
    Inverse ClassRecord.decode ClassRecord.encode (fun _ => True) id ∧
    Inverse CodeRecord.decode CodeRecord.encode (fun _ => True) id ∧
    Inverse CodeDetail.decode CodeDetail.encode
      (fun detail => detail.metadataNames.length < 2 ^ 31 ∧ detail.classRefs.length < 2 ^ 31 ∧
        detail.objectRefs.length < 2 ^ 31) id := by
  refine ⟨?header, ?settings, ?symbol, ?owner, ?code, ?detail⟩
  case header => exact .of_whole (fun value _ => value.reads_encode) Header.decode_consumes
  case settings =>
    refine .of_kept (fun value _ => value.reads_encode) <|
      BuildSettings.decode_consumes.behind fun settings chunk same => ?_
    exact ⟨same.1.trans settings.encode_length.symm, same.2⟩
  case symbol => exact .of_whole (fun value _ => value.reads_encode) SymbolEntry.decode_consumes
  case owner => exact .of_whole (fun value _ => value.reads_encode) ClassRecord.decode_consumes
  case code => exact .of_whole (fun value _ => value.reads_encode) CodeRecord.decode_consumes
  case detail =>
    refine .of_whole (fun value short => ?_) CodeDetail.decode_consumes
    exact value.reads_encode short.1 short.2.1 short.2.2

end Precompiled.Blob
