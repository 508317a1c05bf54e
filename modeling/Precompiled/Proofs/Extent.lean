import Mathlib.Algebra.Order.Ring.Nat
import Mathlib.Order.Bounds.Basic
import Precompiled.Extent

/-! The packed bounds of admitted code. Packing loses nothing as long as the high
bound is positive, and widening never uncovers what was covered. An extent that is
only ever widened is the hull of the ranges it was widened by. -/
namespace Precompiled.Extent

variable {extent other : Extent} {low high lower upper : UInt32} {base start stop : Nat}
  {ranges more : Set (Nat × Nat)}

theorem pack_toNat (low high : UInt32) : (pack low high).toNat = high.toNat * 2 ^ 32 + low.toNat := by
  have small : low.toNat < 2 ^ 32 := low.toNat_lt
  have large : high.toNat < 2 ^ 32 := high.toNat_lt
  have shifted : (high.toUInt64 <<< 32).toNat = high.toNat <<< 32 := by
    rw [UInt64.toNat_shiftLeft, UInt32.toNat_toUInt64]
    have amount : (32 : UInt64).toNat % 64 = 32 := rfl
    rw [amount, Nat.mod_eq_of_lt]
    rw [Nat.shiftLeft_eq]
    omega
  rw [pack, UInt64.toNat_or, shifted, UInt32.toNat_toUInt64, ← Nat.shiftLeft_add_eq_or_of_lt small,
    Nat.shiftLeft_eq]

theorem bounds_pack (positive : 0 < high) : (Extent.mk (pack low high)).bounds? = some (low, high) := by
  have small : low.toNat < 2 ^ 32 := low.toNat_lt
  have large : high.toNat < 2 ^ 32 := high.toNat_lt
  have above : 0 < high.toNat := by simpa [UInt32.lt_iff_toNat_lt] using positive
  have word := pack_toNat low high
  have some : pack low high ≠ 0 := by
    intro zero
    have none : (pack low high).toNat = 0 := by rw [zero]; rfl
    omega
  have lowHalf : (pack low high).toUInt32 = low := by
    rw [← UInt32.toNat_inj, UInt64.toNat_toUInt32, word]
    omega
  have highHalf : (pack low high >>> 32).toUInt32 = high := by
    rw [← UInt32.toNat_inj, UInt64.toNat_toUInt32, UInt64.toNat_shiftRight, word]
    have amount : (32 : UInt64).toNat % 64 = 32 := rfl
    rw [amount, Nat.shiftRight_eq_div_pow]
    omega
  simp only [bounds?, some, if_false, lowHalf, highHalf]

theorem min_toNat (first second : UInt32) : (min first second).toNat = min first.toNat second.toNat := by
  change (if first ≤ second then first else second).toNat = _
  split
  next ordered =>
    rw [UInt32.le_iff_toNat_le] at ordered
    omega
  next ordered =>
    rw [UInt32.le_iff_toNat_le] at ordered
    omega

theorem max_toNat (first second : UInt32) : (max first second).toNat = max first.toNat second.toNat := by
  change (if first ≤ second then second else first).toNat = _
  split
  next ordered =>
    rw [UInt32.le_iff_toNat_le] at ordered
    omega
  next ordered =>
    rw [UInt32.le_iff_toNat_le] at ordered
    omega

/-- Widening by a range that is not empty takes the lower of the low bounds and the
higher of the high ones. -/
theorem bounds_widen (extent : Extent) (inside : low < high) : (extent.widen low high).bounds? =
    match extent.bounds? with
    | none => some (low, high)
    | some (lower, upper) => some (min lower low, max upper high) := by
  have positive : 0 < high := UInt32.lt_of_le_of_lt UInt32.zero_le inside
  unfold widen
  rw [if_neg (UInt32.not_le.mpr inside)]
  cases extent.bounds? with
  | none => exact bounds_pack positive
  | some range =>
    have reaches : 0 < max range.2 high := by
      rw [UInt32.lt_iff_toNat_lt] at positive ⊢
      rw [max_toNat]
      omega
    exact bounds_pack reaches

/-- Widening by an empty range changes nothing. -/
theorem widen_empty (extent : Extent) (empty : ¬low < high) : extent.widen low high = extent :=
  if_pos (UInt32.not_lt.mp empty)

/-- The extent reaches over all offsets from `low` up to `high`. -/
def Covers (extent : Extent) (low high : Nat) : Prop :=
  ∃ lower upper, extent.bounds? = some (lower, upper) ∧ lower.toNat ≤ low ∧ high ≤ upper.toNat

/-- Widening covers the new range. -/
theorem widen_covers (extent : Extent) (inside : low < high) :
    (extent.widen low high).Covers low.toNat high.toNat := by
  have widened := bounds_widen extent inside
  cases current : extent.bounds? with
  | none =>
    rw [current] at widened
    exact ⟨low, high, widened, Nat.le_refl _, Nat.le_refl _⟩
  | some range =>
    rw [current] at widened
    refine ⟨_, _, widened, ?_, ?_⟩
    · rw [min_toNat]
      omega
    · rw [max_toNat]
      omega

/-- Widening covers what was covered. -/
theorem Covers.widen {first last : Nat} (covers : extent.Covers first last) (low high : UInt32) :
    (extent.widen low high).Covers first last := by
  by_cases inside : low < high
  · obtain ⟨lower, upper, bounds, below, above⟩ := covers
    have widened := bounds_widen extent inside
    rw [bounds] at widened
    refine ⟨_, _, widened, ?_, ?_⟩
    · rw [min_toNat]
      omega
    · rw [max_toNat]
      omega
  · rw [widen_empty extent inside]
    exact covers

theorem Covers.contains {first last offset : Nat} (covers : extent.Covers first last)
    (from_first : first ≤ offset) (before_last : offset < last) : extent.contains offset = true := by
  obtain ⟨lower, upper, bounds, below, above⟩ := covers
  simp only [Extent.contains, bounds, Bool.and_eq_true, decide_eq_true_eq]
  omega

/-- Neither bound lies above a limit. -/
def Within (extent : Extent) (limit : Nat) : Prop :=
  ∀ lower upper, extent.bounds? = some (lower, upper) → lower.toNat ≤ limit ∧ upper.toNat ≤ limit

/-- Widening by a range below the limit stays below the limit. -/
theorem Within.widen {limit : Nat} (within : extent.Within limit) (below : low.toNat ≤ limit)
    (above : high.toNat ≤ limit) : (extent.widen low high).Within limit := by
  by_cases inside : low < high
  · intro lower upper bounds
    rw [bounds_widen extent inside] at bounds
    cases current : extent.bounds? with
    | none =>
      rw [current] at bounds
      cases bounds
      exact ⟨below, above⟩
    | some range =>
      obtain ⟨first, last⟩ := range
      rw [current] at bounds
      cases bounds
      obtain ⟨low, high⟩ := within first last current
      rw [min_toNat, max_toNat]
      omega
  · rw [widen_empty extent inside]
    exact within

/-! ## The hull -/

/-- Counted from the base, the extent is the smallest that reaches over all ranges of
addresses. Without any range there are no bounds. -/
def Hull (extent : Extent) (base : Nat) (ranges : Set (Nat × Nat)) : Prop :=
  match extent.bounds? with
  | none => ranges = ∅
  | some (low, high) => IsLeast (Prod.fst '' ranges) (base + low.toNat) ∧
      IsGreatest (Prod.snd '' ranges) (base + high.toNat)

namespace Hull

theorem empty (none : extent.bounds? = none) (hull : extent.Hull base ranges) : ranges = ∅ := by
  unfold Hull at hull
  rwa [none] at hull

theorem bounds (hull : extent.Hull base ranges) (some : extent.bounds? = some (low, high)) :
    IsLeast (Prod.fst '' ranges) (base + low.toNat) ∧
      IsGreatest (Prod.snd '' ranges) (base + high.toNat) := by
  unfold Hull at hull
  rwa [some] at hull

theorem of_bounds (some : extent.bounds? = some (low, high))
    (least : IsLeast (Prod.fst '' ranges) (base + low.toNat))
    (greatest : IsGreatest (Prod.snd '' ranges) (base + high.toNat)) : extent.Hull base ranges := by
  unfold Hull
  rw [some]
  exact ⟨least, greatest⟩

/-- There are bounds exactly if there are ranges. -/
theorem isNone_iff (hull : extent.Hull base ranges) : extent.bounds? = none ↔ ranges = ∅ := by
  refine ⟨fun none => hull.empty none, fun empty => ?_⟩
  cases bounds : extent.bounds? with
  | none => rfl
  | some range =>
    obtain ⟨⟨among, -⟩, -⟩ := hull.bounds bounds
    simp [empty] at among

/-- A range that fits a word is taken in as it is. -/
theorem widen (hull : extent.Hull base ranges) (above : base ≤ start) (ordered : start < stop)
    (small : stop - base < 2 ^ 32) :
    (extent.widen (UInt32.ofNat (start - base)) (UInt32.ofNat (stop - base))).Hull base
      (insert (start, stop) ranges) := by
  have first : (UInt32.ofNat (start - base)).toNat = start - base :=
    UInt32.toNat_ofNat_of_lt' (show start - base < 2 ^ 32 by omega)
  have last : (UInt32.ofNat (stop - base)).toNat = stop - base := UInt32.toNat_ofNat_of_lt' small
  have inside : UInt32.ofNat (start - base) < UInt32.ofNat (stop - base) := by
    rw [UInt32.lt_iff_toNat_lt, first, last]
    omega
  have widened := bounds_widen extent inside
  cases current : extent.bounds? with
  | none =>
    obtain rfl := hull.empty current
    rw [current] at widened
    refine of_bounds widened ?_ ?_
    · rw [first, Nat.add_sub_cancel' above, insert_empty_eq, Set.image_singleton]
      exact isLeast_singleton
    · rw [last, Nat.add_sub_cancel' (above.trans ordered.le), insert_empty_eq, Set.image_singleton]
      exact isGreatest_singleton
  | some range =>
    obtain ⟨lower, upper⟩ := range
    obtain ⟨least, greatest⟩ := hull.bounds current
    rw [current] at widened
    refine of_bounds widened ?_ ?_
    · have low : base + min lower.toNat (start - base) = min start (base + lower.toNat) := by omega
      rw [min_toNat, first, low, Set.image_insert_eq]
      exact least.insert start
    · have high : base + max upper.toNat (stop - base) = max stop (base + upper.toNat) := by omega
      rw [max_toNat, last, high, Set.image_insert_eq]
      exact greatest.insert stop

/-- Over more ranges the bounds lie no closer together. -/
theorem mono (hull : extent.Hull base ranges) (larger : other.Hull base more)
    (fewer : ranges ⊆ more) (bounds : extent.bounds? = some (low, high)) :
    ∃ lower upper, other.bounds? = some (lower, upper) ∧ lower ≤ low ∧ high ≤ upper := by
  obtain ⟨least, greatest⟩ := hull.bounds bounds
  cases current : other.bounds? with
  | none =>
    obtain ⟨range, among, -⟩ := least.1
    have reached := fewer among
    simp [larger.empty current] at reached
  | some range =>
    obtain ⟨lower, upper⟩ := range
    obtain ⟨lowest, highest⟩ := larger.bounds current
    have below := least.mono lowest (Set.image_mono fewer)
    have above := greatest.mono highest (Set.image_mono fewer)
    refine ⟨lower, upper, rfl, ?_, ?_⟩
    · rw [UInt32.le_iff_toNat_le]
      omega
    · rw [UInt32.le_iff_toNat_le]
      omega

/-- The bounds depend on nothing but the ranges. -/
theorem unique (hull : extent.Hull base ranges) (second : other.Hull base ranges) :
    other.bounds? = extent.bounds? := by
  cases current : extent.bounds? with
  | none => exact second.isNone_iff.mpr (hull.empty current)
  | some range =>
    obtain ⟨low, high⟩ := range
    obtain ⟨lower, upper, found, below, above⟩ := hull.mono second subset_rfl current
    obtain ⟨_, _, again, lowest, highest⟩ := second.mono hull subset_rfl found
    obtain ⟨rfl, rfl⟩ := Prod.mk.inj (Option.some.inj (current.symm.trans again))
    rw [found, UInt32.le_antisymm below lowest, UInt32.le_antisymm highest above]

end Hull

end Precompiled.Extent
