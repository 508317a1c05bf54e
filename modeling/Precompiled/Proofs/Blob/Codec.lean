import Mathlib.Algebra.Order.Ring.Int
import Precompiled.Blob.BuildSettings
import Precompiled.Blob.Header
import Precompiled.Blob.Record

/-! Decoding what the writer wrote. A decoder reads a piece of writing when, at
any position and with anything behind it, it yields the value written and stops
right behind the piece. This composes along `bind`, so the record decoders
follow their encoders field by field. -/
namespace Precompiled

/-! ## The bytes of a number -/

/-- Writing keeps exactly the part of a number that fits the width. -/
theorem ofLittleEndian_littleEndian (width value : Nat) :
    ofLittleEndian (littleEndian width value) = value % 256 ^ width := by
  induction width generalizing value with
  | zero => simp [littleEndian, ofLittleEndian, Nat.mod_one]
  | succ width ih =>
    rw [littleEndian, ofLittleEndian, ih, Nat.pow_succ', Nat.mod_mul]
    simp

/-- A number read from bytes is below the bound its width sets. -/
theorem ofLittleEndian_lt (bytes : Bytes) : ofLittleEndian bytes < 256 ^ bytes.length := by
  induction bytes with
  | nil => simp [ofLittleEndian]
  | cons byte rest ih =>
    have := byte.toNat_lt
    simp only [ofLittleEndian, List.length_cons, Nat.pow_succ]
    omega

/-! ## The bytes of a text -/

theorem textOfBytes_textBytes (text : String) : textOfBytes? (textBytes text) = some text := by
  have same : (⟨(textBytes text).toArray⟩ : ByteArray) = text.toByteArray := by simp [textBytes]
  simp only [textOfBytes?, same, String.fromUTF8?]
  simpa [String.fromUTF8] using text.isValidUTF8

theorem textBytes_ofList (characters : List Char) :
    textBytes (String.ofList characters) = characters.flatMap String.utf8EncodeChar := by
  simp [textBytes, List.utf8Encode]

/-- Only the zero character has a zero among its bytes. -/
theorem zero_mem_utf8EncodeChar {character : Char}
    (zero : 0 ∈ String.utf8EncodeChar character) : character = '\x00' := by
  have positive : ∀ value, value ≠ 0 → value < 256 → (0 : UInt8) ≠ UInt8.ofNat value := by
    intro value nonzero bound same
    have := congrArg UInt8.toNat same
    simp [Nat.mod_eq_of_lt bound] at this
    omega
  simp only [String.utf8EncodeChar] at zero
  split at zero
  next ascii =>
    by_cases null : character.val.toNat = 0
    · exact Char.toNat_inj.mp null
    · exact absurd (List.mem_singleton.mp zero) (positive _ null (by omega))
  next =>
    -- Every byte of a longer encoding has its top bit set.
    exfalso
    repeat' split at zero
    all_goals
      simp only [List.mem_cons, List.not_mem_nil, or_false] at zero
      repeat' rcases zero with zero | zero
      all_goals exact positive _ (by omega) (by omega) zero

/-- The bytes of a text up to its first zero character, as a text. -/
def beforeZero (text : String) : String :=
  String.ofList (text.toList.takeWhile (· ≠ '\x00'))

theorem takeWhile_textBytes (text : String) (rest : Bytes) :
    (textBytes text ++ 0 :: rest).takeWhile (· ≠ 0) = textBytes (beforeZero text) := by
  obtain ⟨characters, rfl⟩ : ∃ characters, text = String.ofList characters :=
    ⟨text.toList, String.ofList_toList.symm⟩
  simp only [beforeZero, String.toList_ofList, textBytes_ofList]
  induction characters with
  | nil => simp
  | cons character others ih =>
    by_cases null : character = '\x00'
    · subst null
      simp [String.utf8EncodeChar]
    · have clean : ∀ byte ∈ String.utf8EncodeChar character, byte ≠ 0 := by
        rintro byte member rfl
        exact null (zero_mem_utf8EncodeChar member)
      rw [List.flatMap_cons, List.append_assoc, List.takeWhile_append_of_pos (by simpa using clean), ih,
        List.takeWhile_cons_of_pos (by simpa using null), List.flatMap_cons]

theorem textBytes_injective {first second : String} (same : textBytes first = textBytes second) : first = second :=
  Option.some.inj (by rw [← textOfBytes_textBytes first, same, textOfBytes_textBytes])

/-- Without a zero byte nothing is cut off. -/
theorem beforeZero_eq {text : String} (clean : 0 ∉ textBytes text) : beforeZero text = text := by
  apply textBytes_injective
  rw [← takeWhile_textBytes text [], List.takeWhile_append_of_pos]
  · simp
  · intro byte member
    simp only [ne_eq, decide_not, Bool.not_eq_true', decide_eq_false_iff_not]
    rintro rfl
    exact clean member

end Precompiled

namespace Precompiled.Blob.Decoder

/-- The decoder recovers `value` from `written` and consumes exactly that. -/
def Reads (decoder : Decoder α) (written : Bytes) (value : α) : Prop :=
  ∀ position suffix, decoder ⟨position, written ++ suffix⟩ =
    (.ok value, ⟨position + written.length, suffix⟩)

theorem reads_pure (value : α) : Reads (pure value) [] value :=
  fun _ _ => rfl

theorem bind_ok {first : Decoder α} {next : α → Decoder β}
    (found : first cursor = (.ok value, after)) : (first >>= next) cursor = next value after := by
  simp only [bind, found]

theorem position_apply (cursor : Cursor) : position cursor = (.ok cursor.position, cursor) := rfl

theorem remaining_apply (cursor : Cursor) : remaining cursor = (.ok cursor.remaining, cursor) := rfl

theorem ite_apply (condition : Prop) [Decidable condition] (first second : Decoder α)
    (cursor : Cursor) :
    (if condition then first else second) cursor =
      if condition then first cursor else second cursor := by
  split <;> rfl

theorem Reads.bind {decoder : Decoder α} {next : α → Decoder β}
    (first : Reads decoder written value) (rest : Reads (next value) others result) :
    Reads (decoder >>= next) (written ++ others) result := by
  intro position suffix
  rw [List.append_assoc, bind_ok (first position (others ++ suffix)), rest, List.length_append,
    Nat.add_assoc]

theorem Reads.then_pure {decoder : Decoder α} (read : Reads decoder written value) (view : α → β) :
    Reads (decoder >>= fun found => pure (view found)) written (view value) := by
  have both : Reads (decoder >>= fun found => pure (view found)) (written ++ []) (view value) :=
    read.bind (reads_pure (view value))
  rwa [List.append_nil] at both

theorem Reads.at_position {next : Nat → Decoder α}
    (rest : ∀ offset, Reads (next offset) written value) :
    Reads (position >>= next) written value := by
  intro offset suffix
  exact (bind_ok (position_apply _)).trans (rest offset offset suffix)

theorem Reads.run_start {decoder : Decoder α} (read : Reads decoder written value)
    (suffix : Bytes) : decoder.run (Cursor.start (written ++ suffix)) = .ok value := by
  simp only [Decoder.run, Cursor.start, read 0 suffix]

/-! ## Words -/

theorem reads_bytes (chunk : Bytes) : Reads (bytes chunk.length) chunk chunk := by
  intro position suffix
  simp [bytes]

theorem reads_natural (fits : value < 256 ^ width) :
    Reads (natural width) (littleEndian width value) value := by
  have chunk := reads_bytes (littleEndian width value)
  rw [littleEndian_length] at chunk
  have read := chunk.then_pure ofLittleEndian
  rwa [ofLittleEndian_littleEndian, Nat.mod_eq_of_lt fits] at read

theorem reads_uint16 (value : UInt16) : Reads uint16 (word16 value) value := by
  have fits : value.toNat < 256 ^ 2 := value.toNat_lt
  have read := (reads_natural fits).then_pure UInt16.ofNat
  rwa [UInt16.ofNat_toNat] at read

theorem reads_uint32 (value : UInt32) : Reads uint32 (word32 value) value := by
  have fits : value.toNat < 256 ^ 4 := value.toNat_lt
  have read := (reads_natural fits).then_pure UInt32.ofNat
  rwa [UInt32.ofNat_toNat] at read

theorem reads_uint64 (value : UInt64) : Reads uint64 (word64 value) value := by
  have fits : value.toNat < 256 ^ 8 := value.toNat_lt
  have read := (reads_natural fits).then_pure UInt64.ofNat
  rwa [UInt64.ofNat_toNat] at read

theorem reads_int32 (value : Int32) : Reads int32 (signed32 value) value := by
  have read := (reads_uint32 value.toUInt32).then_pure UInt32.toInt32
  rwa [Int32.toInt32_toUInt32] at read

theorem reads_flag (value : Bool) : Reads flag (flagByte value) value := by
  intro position suffix
  cases value <;> rfl

/-! ## Texts -/

theorem reads_text (value : String) :
    Reads (text (textBytes value).length) (textBytes value) value := by
  refine Reads.at_position fun offset start suffix => ?_
  refine (bind_ok (reads_bytes (textBytes value) start suffix)).trans ?_
  rw [textOfBytes_textBytes]
  rfl

/-- The count in front of a name can announce all bytes that were kept. -/
theorem nameCount_value (value : String) :
    (UInt16.ofNat ((textBytes value).take maxNameBytes).length).toNat =
      ((textBytes value).take maxNameBytes).length := by
  rw [UInt16.toNat_ofNat', Nat.mod_eq_of_lt]
  exact Nat.lt_succ_of_le (List.length_take_le ..)

/-- A text that its count can announce is read back. Longer texts were cut. -/
theorem reads_name (short : (textBytes value).length ≤ maxNameBytes) :
    Reads name (nameBytes value) value := by
  have kept : (textBytes value).take maxNameBytes = textBytes value := List.take_of_length_le short
  have count := nameCount_value value
  simp only [nameBytes, kept] at count ⊢
  refine (reads_uint16 _).bind ?_
  rw [count]
  exact reads_text value

theorem reads_cString (text : String) (position : Nat) (suffix : Bytes) :
    cString.run ⟨position, textBytes text ++ [0] ++ suffix⟩ = .ok (beforeZero text) := by
  have chunk := takeWhile_textBytes text suffix
  rw [List.append_assoc, List.singleton_append]
  -- The chunk stops at the terminator at the latest, so something is left behind it.
  rcases left : (textBytes text ++ 0 :: suffix).drop (textBytes (beforeZero text)).length with
    _ | ⟨byte, others⟩
  · have short := List.drop_eq_nil_iff.mp left
    rw [← chunk] at short
    have whole := (List.takeWhile_prefix _).eq_of_length_le short
    have clean : ((textBytes text ++ 0 :: suffix).takeWhile (· ≠ 0)).all (· ≠ 0) :=
      List.all_takeWhile
    rw [whole] at clean
    simp at clean
  · simp only [Decoder.run, cString, chunk, left, textOfBytes_textBytes]

/-! ## Lists -/

theorem reads_times {decoder : Decoder α} {write : α → Bytes} (items : List α)
    (each : ∀ item ∈ items, Reads decoder (write item) item) :
    Reads (times decoder items.length) (items.flatMap write) items := by
  induction items with
  | nil => exact reads_pure []
  | cons item rest ih =>
    simp only [List.length_cons, times, List.flatMap_cons]
    refine (each item (by simp)).bind ?_
    exact (ih fun other member => each other (by simp [member])).then_pure (item :: ·)

/-- A count is accepted when it announces no more items than can follow. -/
theorem count_reads {offset length : Nat} {rest : Bytes} (small : length < 2 ^ 31)
    (enough : 4 * length ≤ rest.length) :
    count ⟨offset, word32 (UInt32.ofNat length) ++ rest⟩ = (.ok length, ⟨offset + 4, rest⟩) := by
  have read := reads_int32 (Int32.ofNat length) offset rest
  have value : (Int32.ofNat length).toInt = length := Int32.toInt_ofNat_of_lt small
  have nonneg : ¬Int32.ofNat length < 0 := by
    rw [Int32.lt_iff_toInt_lt, value]
    simp
  have room : ¬rest.length < 4 * (Int32.ofNat length).toInt.toNat := by
    rw [value, Int.toNat_natCast]
    omega
  refine (bind_ok (position_apply _)).trans ((bind_ok read).trans ?_)
  rw [ite_apply, if_neg nonneg]
  refine (bind_ok (remaining_apply _)).trans ?_
  rw [ite_apply]
  refine (if_neg room).trans ?_
  rw [value, Int.toNat_natCast]
  rfl

/-- A counted list of words is read back whole. -/
theorem reads_counted {decoder : Decoder α} {write : α → Bytes} (items : List α)
    (small : items.length < 2 ^ 31) (wide : ∀ item, (write item).length = 4)
    (each : ∀ item, Reads decoder (write item) item) :
    Reads (count >>= times decoder) (word32 (UInt32.ofNat items.length) ++ items.flatMap write)
      items := by
  intro position suffix
  have length : (items.flatMap write).length = 4 * items.length := by
    simp [List.length_flatMap, wide, List.map_const', Nat.mul_comm]
  have enough : 4 * items.length ≤ (items.flatMap write ++ suffix).length := by
    rw [List.length_append, length]
    omega
  rw [List.append_assoc, bind_ok (count_reads small enough)]
  rw [reads_times items (fun item _ => each item), List.length_append, word32_length, Nat.add_assoc]

theorem reads_int32List (small : items.length < 2 ^ 31) :
    Reads int32List (signed32List items) items :=
  reads_counted items small signed32_length reads_int32

theorem reads_uint32List (small : items.length < 2 ^ 31) :
    Reads uint32List (word32List items) items :=
  reads_counted items small word32_length reads_uint32

end Precompiled.Blob.Decoder

/-! ## Records -/

namespace Precompiled.Blob

open Decoder

theorem Header.reads_encode (header : Header) : Reads decode header.encode header := by
  unfold decode encode
  simp only [List.append_assoc]
  refine (reads_uint64 header.magic).bind ?_
  iterate 11 refine (reads_uint32 _).bind ?_
  exact (reads_uint32 header.checksum).then_pure fun checksum => { header with checksum }

theorem BuildSettings.reads_encode (settings : BuildSettings) :
    Reads decode settings.encode settings := by
  unfold decode encode
  simp only [List.append_assoc]
  iterate 7 refine (reads_int32 _).bind ?_
  iterate 12 refine (reads_flag _).bind ?_
  have padded := reads_bytes (List.replicate settingsPadding 0)
  rw [List.length_replicate] at padded
  exact padded.then_pure fun _ => settings

theorem SymbolEntry.reads_encode (entry : SymbolEntry) : Reads decode entry.encode entry := by
  have known : SymbolKind.ofCode? entry.kind.code = some entry.kind := by
    cases entry.kind <;> rfl
  unfold decode encode
  simp only [List.append_assoc]
  refine (reads_uint32 entry.nameOffset).bind (Reads.at_position fun kindOffset => ?_)
  refine (reads_uint32 entry.kind.code).bind ?_
  rw [known]
  refine (reads_uint32 entry.offset).bind ?_
  exact (reads_uint32 entry.size).then_pure fun size => { entry with size }

theorem ClassRecord.reads_encode (record : ClassRecord) : Reads decode record.encode record := by
  unfold decode encode
  simp only [List.append_assoc]
  iterate 4 refine (reads_int32 _).bind ?_
  exact (reads_uint64 record.fingerprint).then_pure fun fingerprint => { record with fingerprint }

theorem CodeRecord.reads_encode (record : CodeRecord) : Reads decode record.encode record := by
  unfold decode encode
  simp only [List.append_assoc]
  iterate 5 refine (reads_int32 _).bind ?_
  exact (reads_int32 record.codeId).then_pure fun codeId => { record with codeId }

/-- The lists of a detail have to be short enough for their counts to be
non-negative as signed words. -/
theorem CodeDetail.reads_encode (detail : CodeDetail)
    (metadata : detail.metadataNames.length < 2 ^ 31)
    (classes : detail.classRefs.length < 2 ^ 31) (objects : detail.objectRefs.length < 2 ^ 31) :
    Reads decode detail.encode detail := by
  unfold decode encode
  simp only [List.append_assoc]
  iterate 4 refine (reads_uint32 _).bind ?_
  refine (reads_int32List metadata).bind ?_
  refine (reads_uint32List classes).bind ?_
  exact (reads_uint32List objects).then_pure fun objectRefs => { detail with objectRefs }

/-! ## Places in a byte string -/

/-- `content` stands at `offset` of `data`. -/
def Holds (data : Bytes) (offset : Nat) (content : Bytes) : Prop :=
  ∃ before after, data = before ++ content ++ after ∧ before.length = offset

theorem Holds.bound (holds : Holds data offset content) : offset + content.length ≤ data.length := by
  obtain ⟨before, after, rfl, rfl⟩ := holds
  simp only [List.length_append]
  omega

theorem Holds.drop (holds : Holds data offset content) :
    ∃ after, data.drop offset = content ++ after := by
  obtain ⟨before, after, rfl, rfl⟩ := holds
  exact ⟨after, by simp⟩

theorem Holds.slice (holds : Holds data offset content) :
    (data.drop offset).take content.length = content := by
  obtain ⟨after, rest⟩ := holds.drop
  rw [rest, List.take_left]

/-- What stands at a place inside the content stands in the data too. -/
theorem Holds.inside (outer : Holds data offset content) (inner : Holds content place part) :
    Holds data (offset + place) part := by
  obtain ⟨before, after, rfl, rfl⟩ := outer
  obtain ⟨first, last, rfl, rfl⟩ := inner
  exact ⟨before ++ first, last ++ after, by simp, by simp⟩

theorem Holds.left (holds : Holds data offset (first ++ second)) : Holds data offset first := by
  obtain ⟨before, after, rfl, rfl⟩ := holds
  exact ⟨before, second ++ after, by simp, rfl⟩

theorem Holds.extend (holds : Holds data offset content) (grown : data <+: longer) :
    Holds longer offset content := by
  obtain ⟨before, after, rfl, length⟩ := holds
  obtain ⟨rest, rfl⟩ := grown
  exact ⟨before, after ++ rest, by simp, length⟩

theorem Holds.cursor (holds : Holds data offset content) :
    ∃ after, Cursor.at? data offset = .ok ⟨offset, content ++ after⟩ := by
  have bound := holds.bound
  obtain ⟨after, rest⟩ := holds.drop
  exact ⟨after, by rw [Cursor.at?, if_pos (by omega), rest]⟩

theorem Holds.runAt {decoder : Decoder α} (holds : Holds data offset written)
    (read : Reads decoder written value) : decoder.runAt data offset = .ok value := by
  obtain ⟨after, cursor⟩ := holds.cursor
  simp only [Decoder.runAt, cursor, Bind.bind, Except.bind, Decoder.run, read offset after]

/-- A small offset is the same without its sign. -/
theorem Decoder.runAtSigned_ofNat (decoder : Decoder α) (data : Bytes) (small : offset < 2 ^ 31) :
    decoder.runAtSigned data (Int32.ofNat offset) = decoder.runAt data offset := by
  have same : (Int32.ofNat offset).toInt = offset := Int32.toInt_ofNat_of_lt small
  have nonneg : ¬Int32.ofNat offset < 0 := by
    rw [Int32.lt_iff_toInt_lt, same]
    simp
  simp only [Decoder.runAtSigned, Cursor.atSigned?, nonneg, if_false, same, Int.toNat_natCast,
    Decoder.runAt]

theorem Holds.runAtSigned {decoder : Decoder α} (holds : Holds data offset written)
    (small : offset < 2 ^ 31) (read : Reads decoder written value) :
    decoder.runAtSigned data (Int32.ofNat offset) = .ok value := by
  rw [Decoder.runAtSigned_ofNat decoder data small]
  exact holds.runAt read

end Precompiled.Blob
