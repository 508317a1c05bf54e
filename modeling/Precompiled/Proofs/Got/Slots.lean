import Mathlib.Tactic.ByContra
import Precompiled.Got

/-! What the operations on a table of references do to each slot of it: to the one they
are called for, and to the others. -/
namespace Precompiled.Got

variable {α : Type} {table : Got α} {index other : Nat} {value seen : α}

theorem put_get (inside : index < table.slots.length) (entry : Option α) :
    (table.put index entry).get index = entry := by
  rw [get, put, List.getElem?_set_self inside, Option.join_some]

theorem put_get_ne (apart : index ≠ other) (entry : Option α) :
    (table.put index entry).get other = table.get other := by
  rw [get, put, List.getElem?_set_ne apart, get]

theorem get_empty (size index : Nat) : (empty size : Got α).get index = none := by
  by_cases inside : index < size <;> simp [get, empty, inside]

theorem get_outside (beyond : table.size ≤ index) : table.get index = none := by
  rw [get, List.getElem?_eq_none beyond, Option.join_none]

/-- Only slots of the table hold values. -/
theorem get_inside (held : table.get index = some seen) : index < table.size := by
  by_contra outside
  cases held.symm.trans (get_outside (Nat.le_of_not_lt outside))

/-- Tables of one size with the same values are one table. -/
theorem ext_get {first second : Got α} (size : first.size = second.size)
    (get : ∀ index, first.get index = second.get index) : first = second := by
  obtain ⟨slots⟩ := first
  obtain ⟨others⟩ := second
  congr
  refine List.ext_getElem size fun index inside there => ?_
  have same : (slots[index]?).join = (others[index]?).join := get index
  simpa [inside, there] using same

theorem mem_resolved : (index, value) ∈ table.resolved ↔ table.get index = some value := by
  simp [resolved, get, List.mem_filterMap, List.mem_zipIdx_iff_getElem?, Option.join_eq_some_iff]

/-- The resolved slots are listed in their order. -/
theorem resolved_increasing (table : Got α) :
    table.resolved.Pairwise fun first second => first.1 < second.1 := by
  have indices : (table.slots.zipIdx.map Prod.snd).Pairwise (· < ·) := by
    rw [List.zipIdx_map_snd]
    exact List.pairwise_lt_range' 1
  refine List.pairwise_filterMap.mpr ((List.pairwise_map.mp indices).imp ?_)
  intro first second less listed found other there
  obtain ⟨value, -, rfl⟩ := Option.map_eq_some_iff.mp found
  obtain ⟨later, -, rfl⟩ := Option.map_eq_some_iff.mp there
  exact less

/-! ## Filling a null slot -/

theorem setIfNull_size (index : Nat) (value : α) (table : Got α) :
    (setIfNull index value table).2.size = table.size := by
  unfold setIfNull
  split
  · rfl
  · rfl
  · exact List.length_set

/-- A null slot is filled, and no other slot changes. -/
theorem setIfNull_get (held : table.get other = some seen) :
    (setIfNull index value table).2.get other = some seen := by
  unfold setIfNull
  split
  · exact held
  · exact held
  · rename_i null
    have apart : index ≠ other := by
      rintro rfl
      simp [get, null] at held
    rw [put_get_ne apart, held]

/-- A slot that holds a value is left alone. -/
theorem setIfNull_held (held : table.get index = some seen) :
    setIfNull index value table = (some seen, table) := by
  obtain ⟨slot, present, holds⟩ := Option.bind_eq_some_iff.mp held
  cases (holds : slot = some seen)
  rw [setIfNull, present]

theorem setIfNull_get_ne (apart : index ≠ other) :
    (setIfNull index value table).2.get other = table.get other := by
  unfold setIfNull
  split
  · rfl
  · rfl
  · exact put_get_ne apart _

/-- What setting a slot yields is what the slot then holds. -/
theorem setIfNull_value (result : (setIfNull index value table).1 = some seen) :
    (setIfNull index value table).2.get index = some seen := by
  unfold setIfNull at result ⊢
  split at result
  · cases result
  · rename_i current found
    simpa [get, found] using result
  · rename_i null
    obtain ⟨inside, -⟩ := List.getElem?_eq_some_iff.mp null
    simpa [put_get inside] using result

/-- Setting a slot of the table yields what it holds, or else the value. -/
theorem setIfNull_told (inside : index < table.size) (value : α) :
    (setIfNull index value table).1 = (table.get index).or (some value) := by
  have present : table.slots[index]? = some table.slots[index] := List.getElem?_eq_getElem inside
  cases held : table.slots[index] <;> simp [setIfNull, get, present, held]

/-- A slot of the table then holds what it held, or else the value. -/
theorem setIfNull_slot (inside : index < table.size) (value : α) :
    (setIfNull index value table).2.get index = (table.get index).or (some value) := by
  cases held : table.get index with
  | some seen => exact setIfNull_get held
  | none => exact setIfNull_value (by rw [setIfNull_told inside, held, Option.none_or])

/-- Storing a value in a null slot of the table yields this value. -/
theorem setIfNull_stored (value : α) (null : table.get index = none)
    (inside : index < table.size) : (setIfNull index value table).1 = some value := by
  rw [setIfNull_told inside, null, Option.none_or]

/-- What a slot holds after one slot was filled it held before, or it was filled
with it. -/
theorem setIfNull_source (held : (setIfNull index value table).2.get other = some seen) :
    table.get other = some seen ∨ other = index ∧ seen = value := by
  unfold setIfNull at held
  split at held
  · exact .inl held
  · exact .inl held
  · rename_i null
    obtain ⟨inside, -⟩ := List.getElem?_eq_some_iff.mp null
    by_cases same : index = other
    · subst same
      rw [put_get inside] at held
      exact .inr ⟨rfl, (Option.some.inj held).symm⟩
    · rw [put_get_ne same] at held
      exact .inl held

/-- A slot that does not yield the value was not filled with it. -/
theorem setIfNull_refused (refused : (setIfNull index value table).1 ≠ some value)
    (held : (setIfNull index value table).2.get other = some seen) :
    table.get other = some seen := by
  unfold setIfNull at refused held
  split at held
  · exact held
  · exact held
  · rename_i null
    simp [null] at refused

/-! ## Replacing a value -/

section Replacing

variable [DecidableEq α] {old : α} {entry : Option α}

theorem replaceIf_size (index : Nat) (old : α) (entry : Option α) (table : Got α) :
    (replaceIf index old entry table).size = table.size := by
  unfold replaceIf
  split
  · exact List.length_set
  · rfl

/-- The slot holds the replacement, unless it held another value. -/
theorem replaceIf_slot (index : Nat) (old : α) (entry : Option α) (table : Got α) :
    (replaceIf index old entry table).get index =
      if table.get index = some old then entry else table.get index := by
  unfold replaceIf
  split
  · rename_i held
    exact put_get (get_inside held) entry
  · rfl

theorem replaceIf_get_ne (apart : index ≠ other) :
    (replaceIf index old entry table).get other = table.get other := by
  unfold replaceIf
  split
  · exact put_get_ne apart entry
  · rfl

/-- A slot that is replaced by its own value stays as it is. -/
theorem replaceIf_self (index : Nat) (value : α) (table : Got α) :
    replaceIf index value (some value) table = table := by
  refine ext_get (replaceIf_size index value _ table) fun other => ?_
  by_cases same : index = other
  · subst same
    rw [replaceIf_slot]
    split
    · rename_i held
      exact held.symm
    · rfl
  · exact replaceIf_get_ne same

/-- A slot that is cleared of a value does not hold it. -/
theorem replaceIf_none_get (index : Nat) (old : α) (table : Got α) :
    (replaceIf index old none table).get index ≠ some old := by
  rw [replaceIf_slot]
  split
  · exact nofun
  · assumption

/-- What a slot holds after a replacement it held before, or the replacement put it
there. -/
theorem replaceIf_source (held : (replaceIf index old entry table).get other = some seen) :
    table.get other = some seen ∨ table.get other = some old ∧ entry = some seen := by
  by_cases same : index = other
  · subst same
    rw [replaceIf_slot] at held
    split at held
    · rename_i there
      exact .inr ⟨there, held⟩
    · exact .inl held
  · rw [replaceIf_get_ne same] at held
    exact .inl held

/-- Clearing a slot brings no value into any. -/
theorem replaceIf_none_fewer
    (held : (replaceIf index old none table).get other = some seen) : table.get other = some seen :=
  (replaceIf_source held).resolve_right fun replaced => by cases replaced.2

/-- Only a slot that holds the value to be replaced changes. -/
theorem replaceIf_get (apart : seen ≠ old) (held : table.get other = some seen) :
    (replaceIf index old entry table).get other = some seen := by
  by_cases same : index = other
  · subst same
    rw [replaceIf_slot, if_neg, held]
    rintro there
    exact apart (Option.some.inj (held.symm.trans there))
  · rw [replaceIf_get_ne same, held]

end Replacing

end Precompiled.Got
