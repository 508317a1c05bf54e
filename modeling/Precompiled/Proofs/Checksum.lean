import Precompiled.Checksum
import Precompiled.Proofs.Blob.Codec

/-! What the checksum detects. A bit step is linear in exclusive or and loses
nothing, and so is taking in any number of bytes. Up to four bytes fit into the
remainder side by side, so two byte strings of the same length that differ in
no more than four bytes in a row have different checksums. -/
namespace Precompiled.Checksum

variable {first second remainder : UInt32} {value count : Nat} {bytes others : Bytes}

/-! ## Bit steps -/

theorem low_bit (remainder : UInt32) : remainder &&& 1 = 0 ∨ remainder &&& 1 = 1 := by
  have low : (remainder &&& 1).toNat = remainder.toNat % 2 := by
    rw [UInt32.toNat_and]
    exact Nat.and_one_is_mod _
  rcases Nat.mod_two_eq_zero_or_one remainder.toNat with even | odd
  · exact .inl (UInt32.toNat_inj.mp (low.trans even))
  · exact .inr (UInt32.toNat_inj.mp (low.trans odd))

theorem low_bit_xor (first second : UInt32) :
    (first ^^^ second) &&& 1 = (first &&& 1) ^^^ (second &&& 1) := by
  apply UInt32.toNat_inj.mp
  simp only [UInt32.toNat_and, UInt32.toNat_xor, Nat.and_xor_distrib_right]

theorem shift_even (even : remainder &&& 1 = 0) : shift remainder = remainder >>> 1 :=
  if_pos even

theorem shift_odd (odd : remainder &&& 1 = 1) : shift remainder = (remainder >>> 1) ^^^ polynomial :=
  if_neg (by rw [odd]; decide)

/-- A bit step is linear. -/
theorem shift_xor (first second : UInt32) :
    shift (first ^^^ second) = shift first ^^^ shift second := by
  have low := low_bit_xor first second
  rcases low_bit first with one | one <;> rcases low_bit second with other | other <;>
    rw [one, other] at low
  · rw [shift_even low, shift_even one, shift_even other, UInt32.shiftRight_xor]
  · rw [shift_odd low, shift_even one, shift_odd other, UInt32.shiftRight_xor, UInt32.xor_assoc]
  · rw [shift_odd low, shift_odd one, shift_even other, UInt32.shiftRight_xor]
    ac_rfl
  · -- The polynomial is taken in twice.
    rw [shift_even low, shift_odd one, shift_odd other, UInt32.shiftRight_xor, UInt32.xor_assoc,
      UInt32.xor_comm polynomial, UInt32.xor_assoc, UInt32.xor_self, UInt32.xor_zero]

theorem shiftRight_one (remainder : UInt32) : (remainder >>> 1).toNat = remainder.toNat / 2 := by
  rw [UInt32.toNat_shiftRight]
  exact Nat.shiftRight_one _

/-- The top bit of the polynomial tells that a bit was taken in, so nothing but
zero is moved to zero. -/
theorem shift_eq_zero (gone : shift remainder = 0) : remainder = 0 := by
  have half := shiftRight_one remainder
  rcases low_bit remainder with even | odd
  · rw [shift_even even] at gone
    have low := congrArg UInt32.toNat even
    rw [UInt32.toNat_and] at low
    have parity : remainder.toNat % 2 = 0 := (Nat.and_one_is_mod _).symm.trans low
    rw [gone] at half
    have zero : (0 : UInt32).toNat = 0 := rfl
    exact UInt32.toNat_inj.mp (by omega)
  · rw [shift_odd odd, UInt32.xor_eq_zero_iff] at gone
    have top : polynomial.toNat = 0xEDB88320 := rfl
    rw [gone, top] at half
    have bound := remainder.toNat_lt
    omega

theorem shift_injective (same : shift first = shift second) : first = second := by
  have gone : shift (first ^^^ second) = 0 := by rw [shift_xor, same, UInt32.xor_self]
  exact UInt32.xor_eq_zero_iff.mp (shift_eq_zero gone)

theorem shifts_xor (count : Nat) (first second : UInt32) :
    shifts count (first ^^^ second) = shifts count first ^^^ shifts count second := by
  induction count generalizing first second with
  | zero => rfl
  | succ count ih => rw [shifts, shift_xor, ih, shifts, shifts]

theorem shifts_injective (same : shifts count first = shifts count second) : first = second := by
  induction count generalizing first second with
  | zero => exact same
  | succ count ih => exact shift_injective (ih same)

theorem shifts_add (count more : Nat) (remainder : UInt32) :
    shifts (count + more) remainder = shifts more (shifts count remainder) := by
  induction count generalizing remainder with
  | zero => rw [Nat.zero_add, shifts]
  | succ count ih => rw [Nat.succ_add, shifts, ih, shifts]

theorem shift_double (small : 2 * value < 2 ^ 32) :
    shift (UInt32.ofNat (2 * value)) = UInt32.ofNat value := by
  have even : UInt32.ofNat (2 * value) &&& 1 = 0 := by
    apply UInt32.toNat_inj.mp
    rw [UInt32.toNat_and, UInt32.toNat_ofNat_of_lt' small]
    exact (Nat.and_one_is_mod _).trans (Nat.mul_mod_right 2 value)
  have half : value < 2 ^ 32 := by omega
  rw [shift_even even]
  apply UInt32.toNat_inj.mp
  rw [shiftRight_one, UInt32.toNat_ofNat_of_lt' small, UInt32.toNat_ofNat_of_lt' half,
    Nat.mul_div_cancel_left value (by decide)]

/-- Bits that have not reached the low end are only moved. -/
theorem shifts_scaled (small : 2 ^ count * value < 2 ^ 32) :
    shifts count (UInt32.ofNat (2 ^ count * value)) = UInt32.ofNat value := by
  induction count with
  | zero => rw [Nat.pow_zero, Nat.one_mul, shifts]
  | succ count ih =>
    rw [Nat.pow_succ', Nat.mul_assoc] at small ⊢
    rw [shifts, shift_double small, ih (by omega)]

/-! ## Bytes -/

theorem absorb_injective {byte : UInt8} (same : absorb first byte = absorb second byte) :
    first = second :=
  (UInt32.xor_left_inj _).mp (shifts_injective same)

/-- What follows does not make up for a difference. -/
theorem remainderFrom_injective
    (same : remainderFrom first bytes = remainderFrom second bytes) : first = second := by
  induction bytes generalizing first second with
  | nil => exact same
  | cons byte rest ih => exact absorb_injective (ih same)

theorem remainderFrom_append (remainder : UInt32) (front back : Bytes) :
    remainderFrom remainder (front ++ back) = remainderFrom (remainderFrom remainder front) back :=
  List.foldl_append

/-- A byte stands below the bits of a number that was moved up. -/
theorem byte_xor (byte : UInt8) (value : Nat) :
    byte.toUInt32 ^^^ UInt32.ofNat (2 ^ 8 * value) = UInt32.ofNat (byte.toNat + 256 * value) := by
  have apart : byte.toNat ^^^ 2 ^ 8 * value = 2 ^ 8 * value + byte.toNat := by
    apply Nat.eq_of_testBit_eq
    intro place
    rw [Nat.testBit_xor, Nat.testBit_two_pow_mul_add _ byte.toNat_lt, Nat.testBit_two_pow_mul]
    by_cases low : place < 8
    · simp [low, Nat.not_le_of_gt low]
    · have high : byte.toNat < 2 ^ place :=
        Nat.lt_of_lt_of_le byte.toNat_lt (Nat.pow_le_pow_right (by decide) (Nat.le_of_not_lt low))
      simp [low, Nat.testBit_lt_two_pow high, Nat.le_of_not_lt low]
  have word : byte.toUInt32 = UInt32.ofNat byte.toNat := by simp
  rw [word, ← UInt32.ofNat_xor, apart, Nat.add_comm]
  rfl

/-- Up to four bytes are taken in as one word. -/
theorem remainderFrom_word (remainder : UInt32) (short : bytes.length ≤ 4) :
    remainderFrom remainder bytes =
      shifts (8 * bytes.length) (remainder ^^^ UInt32.ofNat (ofLittleEndian bytes)) := by
  induction bytes generalizing remainder with
  | nil => exact UInt32.xor_zero.symm
  | cons byte rest ih =>
    have few : rest.length ≤ 3 := Nat.le_of_succ_le_succ short
    have small : 2 ^ 8 * ofLittleEndian rest < 2 ^ 32 := by
      have bound := Nat.lt_of_lt_of_le (ofLittleEndian_lt rest)
        (Nat.pow_le_pow_right (by decide) few : 256 ^ rest.length ≤ 256 ^ 3)
      omega
    calc remainderFrom remainder (byte :: rest)
        = remainderFrom (absorb remainder byte) rest := rfl
      _ = shifts (8 * rest.length)
            (absorb remainder byte ^^^ UInt32.ofNat (ofLittleEndian rest)) :=
          ih _ (Nat.le_succ_of_le few)
      _ = shifts (8 * rest.length) (shifts 8 (remainder ^^^ byte.toUInt32) ^^^
            shifts 8 (UInt32.ofNat (2 ^ 8 * ofLittleEndian rest))) := by
          rw [absorb, shifts_scaled small]
      _ = shifts (8 + 8 * rest.length)
            (remainder ^^^ UInt32.ofNat (ofLittleEndian (byte :: rest))) := by
          rw [← shifts_xor, ← shifts_add, UInt32.xor_assoc, byte_xor, ofLittleEndian]
      _ = _ := by rw [List.length_cons, Nat.mul_succ, Nat.add_comm 8]

/-- No two short byte strings of one length leave the same remainder. -/
theorem remainderFrom_short_injective (length : bytes.length = others.length)
    (short : bytes.length ≤ 4) (same : remainderFrom remainder bytes = remainderFrom remainder others) :
    bytes = others := by
  rw [remainderFrom_word remainder short, remainderFrom_word remainder (length ▸ short), length] at same
  have words := (UInt32.xor_right_inj remainder).mp (shifts_injective same)
  have fits (chunk : Bytes) (few : chunk.length ≤ 4) : ofLittleEndian chunk < 2 ^ 32 :=
    Nat.lt_of_lt_of_le (ofLittleEndian_lt chunk)
      (Nat.pow_le_pow_right (by decide) few : 256 ^ chunk.length ≤ 256 ^ 4)
  have numbers := congrArg UInt32.toNat words
  rw [UInt32.toNat_ofNat_of_lt' (fits bytes short),
    UInt32.toNat_ofNat_of_lt' (fits others (length ▸ short))] at numbers
  rw [← littleEndian_ofLittleEndian bytes, numbers, length, littleEndian_ofLittleEndian]

/-! ## The checksum -/

/-- The byte strings agree before `start` and from `width` bytes after it on. -/
def AgreeOutside (start width : Nat) (data other : Bytes) : Prop :=
  ∀ index, index < start ∨ start + width ≤ index → other[index]? = data[index]?

variable {data other : Bytes} {start width : Nat}

theorem AgreeOutside.front (agree : AgreeOutside start width data other) :
    other.take start = data.take start := by
  apply List.ext_getElem?
  intro index
  rw [List.getElem?_take, List.getElem?_take]
  split
  next before => exact agree index (.inl before)
  next => rfl

theorem AgreeOutside.back (agree : AgreeOutside start width data other) :
    other.drop (start + width) = data.drop (start + width) := by
  apply List.ext_getElem?
  intro index
  rw [List.getElem?_drop, List.getElem?_drop]
  exact agree _ (.inr (Nat.le_add_right _ index))

/-- Behind a part that both share they agree as well. -/
theorem AgreeOutside.drop (agree : AgreeOutside start width data other) (count : Nat) :
    AgreeOutside (start - count) width (data.drop count) (other.drop count) := by
  intro index outside
  rw [List.getElem?_drop, List.getElem?_drop]
  exact agree _ (by omega)

/-- A byte string consists of what is in front of a window, the window and what
is behind it. -/
theorem window_split (data : Bytes) (start width : Nat) :
    data.take start ++ ((data.drop start).take width ++ data.drop (start + width)) = data := by
  rw [← List.drop_drop, List.take_append_drop, List.take_append_drop]

/-- A difference of up to four bytes in a row shows in the checksum. -/
theorem crc32_detects (length : other.length = data.length) (short : width ≤ 4)
    (agree : AgreeOutside start width data other) (same : crc32 other = crc32 data) :
    other = data := by
  have remainders : remainderFrom 0xFFFFFFFF other = remainderFrom 0xFFFFFFFF data :=
    (UInt32.xor_left_inj _).mp same
  have middle : ((other.drop start).take width).length = ((data.drop start).take width).length := by
    rw [List.length_take, List.length_take, List.length_drop, List.length_drop, length]
  rw [← window_split data start width, ← window_split other start width, agree.front, agree.back,
    remainderFrom_append, remainderFrom_append, remainderFrom_append, remainderFrom_append] at remainders
  have windows := remainderFrom_short_injective middle
    (Nat.le_trans (List.length_take_le ..) short) (remainderFrom_injective remainders)
  rw [← window_split data start width, ← window_split other start width, agree.front, agree.back,
    windows]

end Precompiled.Checksum
