import Precompiled.Proofs.Blob.Exactness

/-! Names that are longer than their count can announce. The writer cuts such a
text behind a fixed number of bytes, while the reader insists on whole
characters. What was written is therefore read back exactly if the cut falls
between two characters; a cut inside of one leaves a name that nobody can read,
although the reader still finds its end. -/
namespace Precompiled

/-! ## Beginnings of texts -/

/-- The bytes of a character tell where they end. -/
theorem utf8EncodeChar_cancel {first second : Char} {rest others : Bytes}
    (same : String.utf8EncodeChar first ++ rest = String.utf8EncodeChar second ++ others) :
    first = second := by
  have decoded (character : Char) (behind : Bytes) :
      (String.utf8EncodeChar character ++ behind).toByteArray.utf8DecodeChar? 0 = some character := by
    rw [List.toByteArray_append]
    exact ByteArray.utf8DecodeChar?_utf8EncodeChar_append
  have found := decoded first rest
  rw [same, decoded second others] at found
  exact (Option.some.inj found).symm

/-- Characters whose bytes begin the bytes of others begin those others. -/
theorem characters_begin {front whole : List Char}
    (begins : front.flatMap String.utf8EncodeChar <+: whole.flatMap String.utf8EncodeChar) :
    front <+: whole := by
  induction front generalizing whole with
  | nil => exact List.nil_prefix
  | cons character rest ih =>
    obtain ⟨behind, same⟩ := begins
    cases whole with
    | nil =>
      have empty := (List.append_eq_nil_iff.mp same).1
      simp [String.utf8EncodeChar_ne_nil] at empty
    | cons other others =>
      simp only [List.flatMap_cons, List.append_assoc] at same
      obtain rfl := utf8EncodeChar_cancel same
      exact List.cons_prefix_cons.mpr ⟨rfl, ih ⟨behind, List.append_cancel_left same⟩⟩

@[simp] theorem textBytes_append (first second : String) :
    textBytes (first ++ second) = textBytes first ++ textBytes second := by
  simp [textBytes, String.toByteArray_append]

/-- A text whose bytes begin those of another one begins that text. -/
theorem text_begins {text whole : String} (begins : textBytes text <+: textBytes whole) :
    ∃ rest, whole = text ++ rest := by
  rw [← String.ofList_toList (s := text), ← String.ofList_toList (s := whole), textBytes_ofList,
    textBytes_ofList] at begins
  obtain ⟨rest, same⟩ := characters_begin begins
  refine ⟨String.ofList rest, ?_⟩
  rw [← String.ofList_toList (s := whole), ← same, String.ofList_append, String.ofList_toList]

namespace Blob

variable {value text : String}

/-! ## The cut -/

/-- The text is the beginning of `value` that takes all the bytes the writer
keeps. There is none if the cut falls inside a character. -/
structure Kept (value text : String) : Prop where
  begins : ∃ rest, value = text ++ rest
  fills : (textBytes text).length = min maxNameBytes (textBytes value).length

/-- The bytes that the writer keeps are a text exactly if they are a beginning
of the one it was given. -/
theorem textOfBytes_kept :
    textOfBytes? ((textBytes value).take maxNameBytes) = some text ↔ Kept value text := by
  constructor
  · intro known
    have same := textBytes_textOfBytes known
    exact ⟨text_begins (same ▸ List.take_prefix ..), by rw [same, List.length_take]⟩
  · rintro ⟨⟨rest, rfl⟩, fills⟩
    have cut : (textBytes (text ++ rest)).take maxNameBytes = textBytes text := by
      rw [List.take_eq_take_min, ← fills, textBytes_append, List.take_left]
    rw [cut, textOfBytes_textBytes]

/-- A short text is kept whole. -/
theorem kept_short (short : (textBytes value).length ≤ maxNameBytes) : Kept value value :=
  ⟨⟨"", by simp⟩, (Nat.min_eq_right short).symm⟩

theorem Kept.unique {other : String} (first : Kept value text) (second : Kept value other) :
    text = other :=
  Option.some.inj ((textOfBytes_kept.mpr first).symm.trans (textOfBytes_kept.mpr second))

/-- Reading the bytes of a text consumes them, be they a text or not. -/
theorem text_apply (chunk suffix : Bytes) (position : Nat) :
    Decoder.text chunk.length ⟨position, chunk ++ suffix⟩ =
      ((textOfBytes? chunk).elim (.error (.invalidText position)) .ok,
        ⟨position + chunk.length, suffix⟩) := by
  unfold Decoder.text
  rw [Decoder.bind_ok (Decoder.position_apply _),
    Decoder.bind_ok (Decoder.reads_bytes chunk position suffix)]
  cases textOfBytes? chunk <;> rfl

/-- The reader finds the end of every name, and its text if the kept bytes are
one. -/
theorem name_apply (value : String) (position : Nat) (suffix : Bytes) :
    Decoder.name ⟨position, nameBytes value ++ suffix⟩ =
      ((textOfBytes? ((textBytes value).take maxNameBytes)).elim
          (.error (.invalidText (position + 2))) .ok,
        ⟨position + (nameBytes value).length, suffix⟩) := by
  have count := Decoder.nameCount_value value
  unfold nameBytes Decoder.name
  generalize (textBytes value).take maxNameBytes = kept at count ⊢
  rw [List.append_assoc, Decoder.bind_ok (Decoder.reads_uint16 _ position (kept ++ suffix)), count,
    text_apply, word16_length, List.length_append, word16_length, Nat.add_assoc]

theorem name_ok_iff {value text : String} {position : Nat} {suffix : Bytes} :
    (Decoder.name ⟨position, nameBytes value ++ suffix⟩).1 = .ok text ↔ Kept value text := by
  rw [name_apply, ← textOfBytes_kept]
  cases textOfBytes? ((textBytes value).take maxNameBytes) <;> simp

/-- Whatever the writer was given, the reader stops behind the written name. It
yields the kept beginning of the text, all of it if it is short, and an error if
the cut left none. -/
theorem name_read_back (value : String) (position : Nat) (suffix : Bytes) :
    let outcome := Decoder.name ⟨position, nameBytes value ++ suffix⟩
    outcome.2 = ⟨position + (nameBytes value).length, suffix⟩ ∧
    (∀ text, outcome.1 = .ok text ↔ Kept value text) ∧
    ((textBytes value).length ≤ maxNameBytes → outcome.1 = .ok value) ∧
    ((∀ text, ¬Kept value text) ↔ outcome.1 = .error (.invalidText (position + 2))) := by
  intro outcome
  have applied : outcome = _ := name_apply value position suffix
  refine ⟨by rw [applied], fun text => name_ok_iff,
    fun short => name_ok_iff.mpr (kept_short short), ?_⟩
  rw [applied]
  cases known : textOfBytes? ((textBytes value).take maxNameBytes) with
  | none =>
    refine iff_of_true (fun text kept => ?_) rfl
    cases known.symm.trans (textOfBytes_kept.mpr kept)
  | some text => exact iff_of_false (fun none => none text (textOfBytes_kept.mp known)) nofun

/-- Plain letters and a last character of two bytes. -/
def accented (letters : Nat) : String :=
  String.ofList (List.replicate letters 'a' ++ ['é'])

theorem accented_bytes (letters : Nat) :
    textBytes (accented letters) = List.replicate letters 0x61 ++ [0xC3, 0xA9] := by
  rw [accented, textBytes_ofList, List.flatMap_append]
  congr 1
  induction letters with
  | zero => rfl
  | succ letters ih => rw [List.replicate_succ, List.flatMap_cons, ih]; rfl

/-- Between the two bytes of the last character no text ends: what is behind
would be a text of its own. -/
theorem accented_cut (letters : Nat) :
    textOfBytes? ((textBytes (accented letters)).take (letters + 1)) = none := by
  refine Option.eq_none_iff_forall_ne_some.mpr fun text known => ?_
  have front := textBytes_textOfBytes known
  obtain ⟨rest, whole⟩ := text_begins (front ▸ List.take_prefix ..)
  have behind : textBytes rest = (textBytes (accented letters)).drop (letters + 1) := by
    refine (List.append_right_inj (textBytes text)).mp ?_
    rw [← textBytes_append, ← whole, front, List.take_append_drop]
  rw [accented_bytes, List.drop_append, List.length_replicate, Nat.add_sub_cancel_left,
    List.drop_eq_nil_of_le (by rw [List.length_replicate]; exact Nat.le_succ letters)] at behind
  have lone : textOfBytes? [0xA9] = none := by decide +kernel
  have read := textOfBytes_textBytes rest
  rw [behind] at read
  cases lone.symm.trans read

/-- With one byte too many the cut falls inside the last character, and the name
cannot be read. -/
theorem accented_unreadable :
    Decoder.name (Cursor.start (nameBytes (accented 65534))) =
      (.error (.invalidText 2), ⟨65537, []⟩) := by
  have length : (nameBytes (accented 65534)).length = 65537 := by
    rw [nameBytes, List.length_append, word16_length, List.length_take, accented_bytes,
      List.length_append, List.length_replicate]
    rfl
  have applied := name_apply (accented 65534) 0 []
  rw [List.append_nil, length] at applied
  rw [Cursor.start, applied, maxNameBytes, accented_cut 65534]
  rfl

end Blob

end Precompiled
