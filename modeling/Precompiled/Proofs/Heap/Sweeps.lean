import Precompiled.Proofs.Heap.Ensures
import Precompiled.Proofs.Heap.Growth

/-! What sweeps attain. A sweep goes through slots one after the other, and what it
attained for a slot has to last while it goes on, and while the surroundings do what
the sweep puts up with. -/
namespace Precompiled.Heap

variable {image : Image} {rely : State → State → Prop} {kept : State → Prop} {α : Type}
  {operation : Operation α} {before after : State} {codeId : Nat}

/-- A dead slot stays dead. -/
theorem State.Grows.dead (grows : before.Grows after) (dead : before.Dead codeId) :
    after.Dead codeId := by
  intro later there
  have inside : codeId < before.slots.length := by
    rw [← grows.count]
    exact (List.getElem?_eq_some_iff.mp there).1
  obtain ⟨same, present, grown⟩ := grows.slots codeId _ (List.getElem?_eq_getElem inside)
  obtain rfl := Option.some.inj (there.symm.trans present)
  rcases dead _ (List.getElem?_eq_getElem inside) with phase | ⟨stub, held, isStub⟩
  · exact .inl (phase ▸ grown.phase).final
  · exact .inr ⟨stub, grown.handle stub held, isStub⟩

theorem State.Beside.grows (beside : before.Beside after) : before.Grows after :=
  .of_slots (by rw [beside])

/-- A property that lasts while code is taken out of use, whatever the surroundings
do that they may. -/
structure Lasting (rely : State → State → Prop) (kept : State → Prop) : Prop where
  revoke : ∀ {before after}, kept before → Revoke before after → kept after
  deoptimize : ∀ {code before after}, kept before → Deoptimize code before after → kept after
  relied : ∀ {before after}, kept before → rely before after → kept after

theorem Lasting.and {also : State → Prop} (one : Lasting rely kept) (other : Lasting rely also) :
    Lasting rely fun state => kept state ∧ also state where
  revoke both revoked := ⟨one.revoke both.1 revoked, other.revoke both.2 revoked⟩
  deoptimize both deoptimized :=
    ⟨one.deoptimize both.1 deoptimized, other.deoptimize both.2 deoptimized⟩
  relied both onward := ⟨one.relied both.1 onward, other.relied both.2 onward⟩

theorem Lasting.of_iff {same : State → Prop} (lasting : Lasting rely kept)
    (iff : ∀ state, kept state ↔ same state) : Lasting rely same := by
  have equal : kept = same := funext fun state => propext (iff state)
  exact equal ▸ lasting

theorem Deoptimize.grows {code : LinkedCode} (deoptimized : Deoptimize code before after) :
    before.Grows after := by
  cases deoptimized with
  | slot found executable method => exact .set found Slot.grows_invalidate

/-- What lasts while states grow lasts. -/
theorem Lasting.of_grows (grows : ∀ before after, rely before after → before.Grows after)
    (lasts : ∀ {before after}, kept before → before.Grows after → kept after) :
    Lasting rely kept where
  revoke holds revoked := lasts holds revoked.touches.grows
  deoptimize holds deoptimized := lasts holds deoptimized.grows
  relied holds onward := lasts holds (grows _ _ onward)

/-- Taking code out of use attains what its conduct says, and keeps what lasts. -/
theorem revokes_attain (lasting : Lasting rely kept) {post : α → State → Prop}
    (obeys : operation.Obeys (revokeConduct image rely) fun _ value cell => post value cell.state) :
    Attains rely kept operation fun value state => post value state ∧ kept state := by
  refine .of_obeys obeys (fun _ _ => lasting.relied) (fun _ _ _ => lasting.revoke) ?_
  intro request before after holds asked
  cases asked with
  | install impossible => exact impossible.elim
  | deoptimize deoptimized => exact lasting.deoptimize holds deoptimized
  | _ => exact holds

theorem revokes_last (lasting : Lasting rely kept)
    (follows : operation.Follows (revokeConduct image rely)) :
    Attains rely kept operation fun _ => kept := by
  have attains : Attains rely kept operation fun _ state => True ∧ kept state :=
    revokes_attain lasting follows
  exact attains.to_weaker fun _ _ known => known.2

section Sweeps

variable (grows : ∀ before after, rely before after → before.Grows after)
include grows

theorem lasting_dead (codeId : Nat) : Lasting rely fun state => state.Dead codeId :=
  .of_grows grows fun dead grown => grown.dead dead

theorem lasting_since (start : State) : Lasting rely fun state => start.Grows state :=
  .of_grows grows fun since grown => since.trans grown

theorem invalidateCode_attains (image : Image) (lasting : Lasting rely kept) (codeId : Nat) :
    Attains rely kept (invalidateCode codeId) fun _ state => state.Dead codeId ∧ kept state := by
  have obeys : (invalidateCode codeId).Obeys (revokeConduct image rely)
      fun _ _ cell => cell.state.Dead codeId :=
    obeys_invalidateCode (fun _ _ _ revoked => revoked)
      (fun _ _ _ deoptimized => .deoptimize deoptimized) (fun _ dead => dead)
      fun before after onward dead => (grows _ _ onward).dead dead
  exact revokes_attain lasting obeys

/-- A sweep leaves every slot dead that it goes through. -/
theorem invalidateCodes_attains (image : Image) (lasting : Lasting rely kept) (codeIds : List Nat) :
    Attains rely kept (invalidateCodes codeIds) fun _ state =>
      (∀ codeId ∈ codeIds, state.Dead codeId) ∧ kept state := by
  induction codeIds generalizing kept with
  | nil => exact .pure _ fun _ holds => ⟨by simp, holds⟩
  | cons codeId rest ih =>
    refine .bind (invalidateCode_attains grows image lasting codeId) fun report => ?_
    refine .bind (ih ((lasting_dead grows codeId).and lasting)) fun others => .pure _ ?_
    rintro state ⟨dead, first, holds⟩
    exact ⟨List.forall_mem_cons.mpr ⟨first, dead⟩, holds⟩

/-- The library lists a code id as dependent on a class of the blob. -/
def Image.Depends (image : Image) (entry : ClassEntry) (codeId : Nat) : Prop :=
  ∃ dependents, image.library.dependentsOf entry.record = .ok dependents ∧ codeId ∈ dependents

theorem invalidateDependents_attains (image : Image) (lasting : Lasting rely kept)
    (entry : ClassEntry) :
    Attains rely kept (invalidateDependents image entry) fun _ state =>
      (∀ codeId, image.Depends entry codeId → state.Dead codeId) ∧ kept state := by
  unfold invalidateDependents
  cases listed : image.library.dependentsOf entry.record with
  | error error =>
    refine .bind (.note _ _ _) fun _ => .pure _ fun state holds => ⟨?_, holds⟩
    rintro codeId ⟨dependents, found, -⟩
    cases listed.symm.trans found
  | ok dependents =>
    have swept : ∀ state : State, (∀ codeId ∈ dependents, state.Dead codeId) ∧ kept state →
        (∀ codeId, image.Depends entry codeId → state.Dead codeId) ∧ kept state := by
      rintro state ⟨dead, holds⟩
      refine ⟨?_, holds⟩
      rintro codeId ⟨others, found, among⟩
      cases listed.symm.trans found
      exact dead codeId among
    refine .bind (invalidateCodes_attains grows image lasting dependents) fun report => ?_
    dsimp only
    split
    · exact .bind (.note _ _ _) fun _ => .pure _ swept
    · exact .pure _ swept

/-- A sweep of the slots of selected phases attains for each slot what its death
attains, or what its phase says if it is not selected in its turn. -/
theorem invalidateSelected_attains (image : Image) {select : Slot.Phase → Bool}
    {settled : Nat → State → Prop}
    (lasting : ∀ codeId, Lasting rely fun state => settled codeId state ∧ kept state)
    (keeping : Lasting rely kept)
    (dead : ∀ codeId state, kept state → state.Dead codeId → settled codeId state)
    (unselected : ∀ codeId state, kept state → (state.phase? codeId).any select = false →
      settled codeId state) (codeIds : List Nat) :
    Attains rely kept (invalidateSelected select codeIds) fun _ state =>
      (∀ codeId ∈ codeIds, settled codeId state) ∧ kept state := by
  induction codeIds generalizing kept with
  | nil => exact .pure _ fun _ holds => ⟨by simp, holds⟩
  | cons codeId rest ih =>
    have onward : ∀ report : SweepReport,
        Attains rely (fun state => settled codeId state ∧ kept state)
          (do return report.merge (← invalidateSelected select rest) : Operation SweepReport)
          fun _ state => (∀ other ∈ codeId :: rest, settled other state) ∧ kept state := by
      intro report
      have both (other : Nat) :
          Lasting rely fun state => settled other state ∧ settled codeId state ∧ kept state :=
        ((lasting other).and (lasting codeId)).of_iff fun state =>
          ⟨fun ⟨⟨own, _⟩, first, holds⟩ => ⟨own, first, holds⟩,
            fun ⟨own, first, holds⟩ => ⟨⟨own, holds⟩, first, holds⟩⟩
      refine .bind (ih both (lasting codeId) (fun other state holds => dead other state holds.2)
        fun other state holds => unselected other state holds.2) fun others => .pure _ ?_
      rintro state ⟨others, first, holds⟩
      exact ⟨List.forall_mem_cons.mpr ⟨first, others⟩, holds⟩
    refine .bind (.look _) fun selected => ?_
    cases selected with
    | false =>
      refine .bind (.pure _ ?_) onward
      rintro state ⟨holds, skipped⟩
      exact ⟨unselected codeId state holds skipped.symm, holds⟩
    | true =>
      refine .bind ?_ onward
      refine (invalidateCode_attains grows image keeping codeId).weaken (fun _ holds => holds.1) ?_
      rintro report state ⟨gone, holds⟩
      exact ⟨dead codeId state holds gone, holds⟩

end Sweeps

end Precompiled.Heap
