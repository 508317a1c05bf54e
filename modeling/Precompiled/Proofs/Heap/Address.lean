import Precompiled.Heap.Registry

/-! Which slot an address belongs to, step by step. -/
namespace Precompiled.Heap

variable {heap : Heap} {address : Nat} {slot : Slot} {code : LinkedCode}

/-- The conditions under which a slot owns an address. -/
structure Owns (heap : Heap) (address codeId : Nat) (slot : Slot) (code : LinkedCode) : Prop where
  above : heap.image.library.codeBase ≤ address
  within : heap.state.extent.contains (address - heap.image.library.codeBase) = true
  leads : heap.image.codeIdOf? (address - heap.image.library.codeBase) = some codeId
  found : heap.state.slots[codeId]? = some slot
  handle : slot.handle = some code
  admitted : slot.admitted = true
  covers : code.contains address = true

theorem owningSlot_some :
    heap.owningSlot address = some (slot, code) ↔ ∃ codeId, Owns heap address codeId slot code := by
  unfold owningSlot
  constructor
  · intro owned
    by_cases above : address < heap.image.library.codeBase
    · simp [above] at owned
    · simp only [above, if_false] at owned
      cases within : heap.state.extent.contains (address - heap.image.library.codeBase) with
      | false => simp [within] at owned
      | true =>
        simp only [within, if_true] at owned
        obtain ⟨codeId, leads, owned⟩ := Option.bind_eq_some_iff.mp owned
        obtain ⟨own, found, owned⟩ := Option.bind_eq_some_iff.mp owned
        obtain ⟨held, handle, owned⟩ := Option.bind_eq_some_iff.mp owned
        by_cases covered : (own.admitted && held.contains address) = true
        · simp only [covered, if_true, Option.some.injEq, Prod.mk.injEq] at owned
          obtain ⟨rfl, rfl⟩ := owned
          obtain ⟨admitted, covers⟩ := Bool.and_eq_true_iff.mp covered
          exact ⟨codeId, Nat.le_of_not_lt above, within, leads, found, handle, admitted, covers⟩
        · simp [covered] at owned
  · rintro ⟨codeId, above, within, leads, found, handle, admitted, covers⟩
    simp [Nat.not_lt.mpr above, within, leads, found, handle, admitted, covers]

/-- The owner of an address is the code of the slot that owns it, while that slot
is resolved. -/
theorem findOwner_some :
    heap.findOwner address = some code ↔
      ∃ codeId slot, Owns heap address codeId slot code ∧ slot.phase = .resolved := by
  unfold findOwner
  constructor
  · intro owner
    obtain ⟨⟨slot, held⟩, owned, owner⟩ := Option.bind_eq_some_iff.mp owner
    obtain ⟨codeId, owns⟩ := owningSlot_some.mp owned
    by_cases resolved : slot.phase = .resolved
    · simp only [resolved, if_true, Option.some.injEq] at owner
      subst owner
      exact ⟨codeId, slot, owns, resolved⟩
    · simp [resolved] at owner
  · rintro ⟨codeId, slot, owns, resolved⟩
    rw [owningSlot_some.mpr ⟨codeId, owns⟩]
    simp [resolved]

end Precompiled.Heap
