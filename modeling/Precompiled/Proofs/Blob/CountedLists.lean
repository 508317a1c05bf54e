import Precompiled.Proofs.Blob.Codec
import Precompiled.Proofs.Traps.Scan

/-! Counted lists. Everything about such a list is decided by its count: once the
count has been accepted, every item that it announces is there to be read, and a
count that is refused leaves all of them unread. So space for the items may be set
aside as soon as the count is known. -/
namespace Precompiled.Blob

/-- The same bytes, `count` of them further on. -/
def Cursor.advance (cursor : Cursor) (count : Nat) : Cursor :=
  ⟨cursor.position + count, cursor.rest.drop count⟩

@[simp] theorem Cursor.advance_length (cursor : Cursor) (count : Nat) :
    (cursor.advance count).rest.length = cursor.rest.length - count := by
  rw [advance, List.length_drop]

theorem Cursor.advance_advance (cursor : Cursor) (first second : Nat) :
    (cursor.advance first).advance second = cursor.advance (first + second) := by
  simp only [advance, List.drop_drop, Nat.add_assoc]

/-- The word in the four bytes behind the first `offset` ones. -/
def wordAt (ahead : Bytes) (offset : Nat) : UInt32 :=
  UInt32.ofNat (ofLittleEndian ((ahead.drop offset).take 4))

theorem wordAt_drop (ahead : Bytes) (skipped offset : Nat) :
    wordAt (ahead.drop skipped) offset = wordAt ahead (skipped + offset) := by
  rw [wordAt, wordAt, List.drop_drop]

theorem not_negative {value : Int32} {count : Nat} (natural : value.toInt = count) :
    ¬value < 0 := by
  rw [Int32.lt_iff_toInt_lt, natural, Int32.toInt_zero]
  omega

/-- Four bytes hold a count that is not negative, and that many words follow them. -/
structure Announces (ahead : Bytes) (count : Nat) : Prop where
  present : 4 ≤ ahead.length
  natural : (wordAt ahead 0).toInt32.toInt = count
  room : 4 + 4 * count ≤ ahead.length

/-- Why a count is refused, and where that leaves the cursor. -/
inductive Refused (cursor : Cursor) : DecodeError → Cursor → Prop where
  | cut : cursor.rest.length < 4 → Refused cursor (.unexpectedEnd cursor.position 4) cursor
  | negative : 4 ≤ cursor.rest.length → (wordAt cursor.rest 0).toInt32 < 0 →
      Refused cursor (.invalidOffset (wordAt cursor.rest 0).toInt32.toInt) (cursor.advance 4)
  | overrun {count : Nat} : 4 ≤ cursor.rest.length →
      (wordAt cursor.rest 0).toInt32.toInt = count → cursor.rest.length < 4 + 4 * count →
      Refused cursor (.unexpectedEnd cursor.position (4 * count)) (cursor.advance 4)

theorem announces_or_refused (cursor : Cursor) :
    (∃ count, Announces cursor.rest count) ∨ ∃ error after, Refused cursor error after := by
  by_cases cut : cursor.rest.length < 4
  · exact .inr ⟨_, _, .cut cut⟩
  by_cases below : (wordAt cursor.rest 0).toInt32 < 0
  · exact .inr ⟨_, _, .negative (by omega) below⟩
  have natural : (wordAt cursor.rest 0).toInt32.toInt =
      ((wordAt cursor.rest 0).toInt32.toInt.toNat : Nat) := by
    rw [Int32.lt_iff_toInt_lt, Int32.toInt_zero] at below
    omega
  by_cases room : 4 + 4 * (wordAt cursor.rest 0).toInt32.toInt.toNat ≤ cursor.rest.length
  · exact .inl ⟨_, by omega, natural, room⟩
  · exact .inr ⟨_, _, .overrun (by omega) natural (by omega)⟩

/-- A refused count was read whole or not at all. -/
theorem Refused.advanced (refused : Refused cursor error after) :
    after = cursor.advance 0 ∨ after = cursor.advance 4 := by
  cases refused with
  | cut => exact .inl rfl
  | negative | overrun => exact .inr rfl

namespace Decoder

/-! ## Words -/

theorem bind_error {first : Decoder α} {next : α → Decoder β}
    (failed : first cursor = (.error error, after)) :
    (first >>= next) cursor = (.error error, after) := by
  simp only [bind, failed]

theorem bytes_short {cursor : Cursor} (short : cursor.rest.length < needed) :
    bytes needed cursor = (.error (.unexpectedEnd cursor.position needed), cursor) := by
  simp only [bytes, List.length_take]
  rw [if_neg (by omega)]

theorem bytes_enough {cursor : Cursor} (enough : needed ≤ cursor.rest.length) :
    bytes needed cursor = (.ok (cursor.rest.take needed), cursor.advance needed) := by
  simp only [bytes, List.length_take]
  rw [if_pos (by omega)]
  rfl

/-- The decoder reads one word and yields its `value`. -/
structure ReadsWord (item : Decoder α) (value : UInt32 → α) : Prop where
  enough : ∀ cursor : Cursor, 4 ≤ cursor.rest.length →
    item cursor = (.ok (value (wordAt cursor.rest 0)), cursor.advance 4)
  short : ∀ cursor : Cursor, cursor.rest.length < 4 →
    item cursor = (.error (.unexpectedEnd cursor.position 4), cursor)

theorem ReadsWord.view {item : Decoder α} {value : UInt32 → α} (reads : ReadsWord item value)
    (view : α → β) :
    ReadsWord (item >>= fun word => Pure.pure (view word)) fun word => view (value word) where
  enough cursor inside := bind_ok (reads.enough cursor inside)
  short cursor outside := bind_error (reads.short cursor outside)

theorem uint32_readsWord : ReadsWord uint32 id where
  enough _ inside := bind_ok (bind_ok (bytes_enough inside))
  short _ outside := bind_error (bind_error (bytes_short outside))

theorem int32_readsWord : ReadsWord int32 UInt32.toInt32 :=
  uint32_readsWord.view UInt32.toInt32

/-! ## The count -/

theorem count_announced {cursor : Cursor} (announces : Announces cursor.rest length) :
    count cursor = (.ok length, cursor.advance 4) := by
  have natural := announces.natural
  have room : ¬(cursor.advance 4).remaining < 4 * length := by
    have bound := announces.room
    simp only [Cursor.remaining, Cursor.advance_length]
    omega
  refine (bind_ok (position_apply _)).trans ?_
  refine (bind_ok (int32_readsWord.enough cursor announces.present)).trans ?_
  rw [ite_apply, if_neg (not_negative natural), natural, Int.toNat_natCast]
  refine (bind_ok (remaining_apply _)).trans ?_
  rw [ite_apply, if_neg room]
  rfl

theorem count_refused (refused : Refused cursor error after) :
    count cursor = (.error error, after) := by
  refine (bind_ok (position_apply _)).trans ?_
  cases refused with
  | cut short => exact bind_error (int32_readsWord.short cursor short)
  | negative present below =>
    refine (bind_ok (int32_readsWord.enough cursor present)).trans ?_
    rw [ite_apply, if_pos below]
    rfl
  | @overrun length present natural short =>
    have lacking : (cursor.advance 4).remaining < 4 * length := by
      simp only [Cursor.remaining, Cursor.advance_length]
      omega
    refine (bind_ok (int32_readsWord.enough cursor present)).trans ?_
    rw [ite_apply, if_neg (not_negative natural), natural, Int.toNat_natCast]
    refine (bind_ok (remaining_apply _)).trans ?_
    rw [ite_apply, if_pos lacking]
    rfl

theorem count_ok_iff {cursor : Cursor} :
    count cursor = (.ok length, after) ↔
      Announces cursor.rest length ∧ after = cursor.advance 4 := by
  constructor
  · intro accepted
    rcases announces_or_refused cursor with ⟨other, announces⟩ | ⟨error, last, refused⟩
    · obtain ⟨⟨rfl⟩, rfl⟩ := Prod.mk.inj ((count_announced announces).symm.trans accepted)
      exact ⟨announces, rfl⟩
    · cases (count_refused refused).symm.trans accepted
  · rintro ⟨announces, rfl⟩
    exact count_announced announces

/-! ## The items -/

section
variable {item : Decoder α} {value : UInt32 → α}

/-- The values of the first `count` words. -/
def wordsOf (value : UInt32 → α) (ahead : Bytes) (count : Nat) : List α :=
  (List.range count).map fun index => value (wordAt ahead (4 * index))

theorem wordsOf_succ (value : UInt32 → α) (ahead : Bytes) (count : Nat) :
    wordsOf value ahead (count + 1) =
      value (wordAt ahead 0) :: wordsOf value (ahead.drop 4) count := by
  have shifted (index : Nat) : wordAt (ahead.drop 4) (4 * index) = wordAt ahead (4 * (index + 1)) := by
    rw [wordAt_drop, Nat.mul_add, Nat.add_comm]
  simp [wordsOf, List.range_succ_eq_map, List.map_map, Function.comp_def, shifted]

/-- The loop reads as many words as it has rounds, if they are there. -/
theorem times_words (reads : ReadsWord item value) {cursor : Cursor}
    (enough : 4 * rounds ≤ cursor.rest.length) :
    times item rounds cursor =
      (.ok (wordsOf value cursor.rest rounds), cursor.advance (4 * rounds)) := by
  induction rounds generalizing cursor with
  | zero => rfl
  | succ rounds ih =>
    have left : 4 * rounds ≤ (cursor.advance 4).rest.length := by
      simp only [Cursor.advance_length]
      omega
    refine (bind_ok (reads.enough cursor (by omega))).trans ((bind_ok (ih left)).trans ?_)
    rw [Cursor.advance_advance, Nat.mul_succ, Nat.add_comm 4, wordsOf_succ]
    rfl

/-- Reading a counted list of words at a cursor. It succeeds exactly if its count is
accepted. Then it yields the words behind the count and ends behind the last of them.
Otherwise it ends as the count ended, before the first item. A count that was accepted
announces no more items than fit into what is left, and every round of the loop finds
its word. -/
structure Whole (item : Decoder α) (value : UInt32 → α) (list : Decoder (List α))
    (cursor : Cursor) : Prop where
  succeeds : (∃ items, list.run cursor = .ok items) ↔ ∃ count, Announces cursor.rest count
  yields : ∀ count, Announces cursor.rest count →
    list cursor = (.ok (wordsOf value (cursor.rest.drop 4) count), cursor.advance (4 + 4 * count))
  refuses : (¬∃ count, Announces cursor.rest count) → ∃ error after,
    Refused cursor error after ∧ (after = cursor.advance 0 ∨ after = cursor.advance 4) ∧
      Decoder.count cursor = (.error error, after) ∧ list cursor = (.error error, after)
  reserves : ∀ length after, Decoder.count cursor = (.ok length, after) →
    4 * length ≤ after.remaining ∧ ∀ round, round < length → ∃ items,
      times item round after = (.ok items, after.advance (4 * round)) ∧
      item (after.advance (4 * round)) =
        (.ok (value (wordAt after.rest (4 * round))), after.advance (4 * (round + 1)))

theorem whole_of_readsWord (reads : ReadsWord item value) (cursor : Cursor) :
    Whole item value (Decoder.count >>= times item) cursor := by
  have accepted : ∀ {count}, Announces cursor.rest count →
      (Decoder.count >>= times item) cursor =
        (.ok (wordsOf value (cursor.rest.drop 4) count), cursor.advance (4 + 4 * count)) := by
    intro count announces
    have enough : 4 * count ≤ (cursor.advance 4).rest.length := by
      have room := announces.room
      simp only [Cursor.advance_length]
      omega
    rw [bind_ok (count_announced announces), times_words reads enough, Cursor.advance_advance]
    rfl
  refine ⟨⟨?_, ?_⟩, fun count => accepted, ?_, ?_⟩
  · rintro ⟨items, ran⟩
    refine (announces_or_refused cursor).resolve_right ?_
    rintro ⟨error, after, refused⟩
    rw [Decoder.run, bind_error (count_refused refused)] at ran
    cases ran
  · rintro ⟨count, announces⟩
    exact ⟨_, congrArg Prod.fst (accepted announces)⟩
  · intro unannounced
    obtain ⟨error, after, refused⟩ := (announces_or_refused cursor).resolve_left unannounced
    have counted := count_refused refused
    exact ⟨error, after, refused, refused.advanced, counted, bind_error counted⟩
  · intro length after counted
    obtain ⟨announces, rfl⟩ := count_ok_iff.mp counted
    have room : 4 * length ≤ (cursor.advance 4).rest.length := by
      have bound := announces.room
      simp only [Cursor.advance_length]
      omega
    refine ⟨room, fun round early => ⟨_, times_words reads (by omega), ?_⟩⟩
    have next : 4 ≤ ((cursor.advance 4).advance (4 * round)).rest.length := by
      simp only [Cursor.advance_length] at room ⊢
      omega
    have word : wordAt ((cursor.advance 4).advance (4 * round)).rest 0 =
        wordAt (cursor.advance 4).rest (4 * round) := wordAt_drop _ (4 * round) 0
    rw [reads.enough _ next, Cursor.advance_advance _ (4 * round), Nat.mul_succ, word]

end

end Decoder

/-- Both kinds of counted lists are read all or nothing, wherever they stand. The scans,
which compute the bytes they need by a saturating product, have the same outcome on every
window and never trap. -/
theorem counted_lists_whole :
    (∀ cursor, Decoder.Whole Decoder.int32 UInt32.toInt32 Decoder.int32List cursor) ∧
    (∀ cursor, Decoder.Whole Decoder.uint32 id Decoder.uint32List cursor) ∧
    Scan.count.Mirrors Decoder.count ∧ Scan.int32List.Mirrors Decoder.int32List ∧
    Scan.uint32List.Mirrors Decoder.uint32List :=
  ⟨Decoder.whole_of_readsWord Decoder.int32_readsWord,
    Decoder.whole_of_readsWord Decoder.uint32_readsWord,
    Scan.count_mirrors, Scan.int32List_mirrors, Scan.uint32List_mirrors⟩

/-- A thousand items are announced and none follows. -/
example : Decoder.int32List (Cursor.start (signed32 1000)) =
    (.error (.unexpectedEnd 0 4000), ⟨4, []⟩) := by
  rfl

end Precompiled.Blob
