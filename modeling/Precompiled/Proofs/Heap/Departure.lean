import Precompiled.Proofs.Heap.Restoration

/-! What sweeps take out of use for good. A sweep covers the code that depends on a
class, and with a live class that goes some of the code of its own class goes as well:
what was executable if the class is redefined, everything if it is unloaded. All of it
is dead when the call replies, whatever the surroundings did meanwhile as long as slots
only grow. -/
namespace Precompiled.Heap

variable {image : Image} {rely : State → State → Prop} {start before after state : State}
  {klass : ClassRef} {entry : ClassEntry} {codeId classId : Nat}
  {select : Slot.Phase → Bool}

/-- The code that a call takes out of use when it begins in a state. -/
inductive Condemns (image : Image) (state : State) : Call → Nat → Prop where
  /-- A sweep covers the dependents of the class of its name. -/
  | swept {name : String} {entry : ClassEntry} {codeId : Nat}
    (found : lookupClass image name = .ok (some entry)) (depends : image.Depends entry codeId) :
    Condemns image state (.sweep name) codeId
  | flushed {klass : ClassRef} {codeId : Nat}
    (depends : isDependent image state klass codeId = true) :
    Condemns image state (.flush klass) codeId
  /-- Redefining a class covers its own code as far as it is executable. -/
  | redefined {klass : ClassRef} {entry : ClassEntry} {codeId : Nat}
    (known : entryOf image state klass = some entry) (own : image.Assigns codeId entry.classId)
    (resolved : state.phase? codeId = some .resolved) :
    Condemns image state (.flush klass) codeId
  | unloaded {klass : ClassRef} {codeId : Nat}
    (depends : isDependent image state klass codeId = true) :
    Condemns image state (.unload klass) codeId
  /-- Unloading a class covers all of its own code. -/
  | retired {klass : ClassRef} {entry : ClassEntry} {codeId : Nat}
    (known : entryOf image state klass = some entry) (own : image.Assigns codeId entry.classId) :
    Condemns image state (.unload klass) codeId

theorem isDependent_iff : isDependent image state klass codeId = true ↔
    ∃ entry, entryOf image state klass = some entry ∧ image.Depends entry codeId := by
  unfold isDependent Image.Depends
  cases entryOf image state klass with
  | none => simp
  | some entry =>
    simp only [Option.some.injEq, exists_eq_left']
    split
    · rename_i dependents listed
      simp [listed]
    · rename_i error listed
      simp [listed]

/-- A selected phase is left only for good. -/
def Closing (select : Slot.Phase → Bool) : Prop :=
  ∀ {before after : Slot.Phase}, select before = true → before.Leads after →
    select after = false → after = .invalidated

theorem closing_resolved : Closing fun phase => phase == .resolved := by
  intro before after selected leads unselected
  cases leads <;> simp_all

theorem closing_alive : Closing fun phase => phase != .invalidated := by
  intro before after selected leads unselected
  simpa using unselected

/-- A slot that is selected no more is dead. -/
theorem dead_of_unselected (closing : Closing select) (grows : start.Grows state)
    (selected : (start.phase? codeId).any select = true)
    (unselected : (state.phase? codeId).any select = false) : state.Dead codeId := by
  cases found : start.slots[codeId]? with
  | none => simp [State.phase?, found] at selected
  | some slot =>
    obtain ⟨later, there, grown⟩ := grows.slots codeId slot found
    simp only [State.phase?, found, there, Option.map_some, Option.any_some] at selected unselected
    exact State.dead_of_slot there (.inl (closing selected grown.phase unselected))

/-- What was invalidated, or is no slot at all, is dead. -/
theorem dead_of_invalidated (grows : start.Grows state)
    (gone : (start.phase? codeId).any (fun phase => phase != .invalidated) = false) :
    state.Dead codeId := by
  apply grows.dead
  intro slot found
  exact .inl (by simpa [State.phase?, found] using gone)

/-- The code that a class of the blob takes along: what depends on it, and its own code
in the selected phases. -/
def Involved (image : Image) (select : Slot.Phase → Bool) (entry : ClassEntry) (start : State)
    (codeId : Nat) : Prop :=
  image.Depends entry codeId ∨
    image.Assigns codeId entry.classId ∧ (start.phase? codeId).any select = true

/-- Finding a class by its name changes nothing. -/
theorem findClass_attains {pre : State → Prop} (name : String) :
    Attains rely pre (findClass image name) fun found state =>
      pre state ∧ ∀ entry, lookupClass image name = .ok (some entry) ↔ found = some entry := by
  unfold findClass
  cases lookupClass image name with
  | error error => exact .bind (.note _ _ _) fun _ => .pure _ fun _ holds => ⟨holds, by simp⟩
  | ok outcome => exact .pure _ fun _ holds => ⟨holds, by simp⟩

/-! ## Metaspace slots -/

section Clearing

variable {kept : State → Prop}

/-- A slot that is cleared does not hold the live class. -/
theorem clearSlot_attains
    (drops : ∀ before after, kept before → Drop klass before after → kept after)
    (index : Nat) :
    Attains rely kept
      (Got.updateSlot Cell.metaspace (fun _ value =>
        (pure (if value = klass then none else some value) : Operation (Option ClassRef))) index)
      fun _ state => state.metaspace.get index ≠ some klass ∧ kept state := by
  intro heard cell holds
  simp only [Got.updateSlot, Action.bind_apply, Action.read_apply, Dialogue.bind_done]
  cases held : (Cell.metaspace.get cell).get index with
  | none =>
    refine ⟨.refl, ?_, holds⟩
    exact fun other => Option.some_ne_none klass (other.symm.trans held)
  | some seen =>
    refine ⟨.single trivial, ?_⟩
    by_cases same : seen = klass
    · subst same
      have dropped : Drop seen cell.state { cell.state with
          metaspace := Got.replaceIf index seen none cell.state.metaspace } := .slot
      have after := drops _ _ holds dropped
      have cleared := Got.replaceIf_none_get index seen cell.state.metaspace
      simpa only [if_true] using ⟨cleared, after⟩
    · have unchanged := Got.replaceIf_self index seen cell.state.metaspace
      have apart : cell.state.metaspace.get index ≠ some klass := by
        intro other
        exact same (Option.some.inj (held.symm.trans other))
      simpa [same, Cell.metaspace, unchanged] using ⟨apart, holds⟩

theorem clearSlots_attains
    (drops : ∀ before after, kept before → Drop klass before after → kept after)
    (indexes : List Nat) :
    Attains rely kept
      (Got.updateSlots Cell.metaspace (fun _ value =>
        (pure (if value = klass then none else some value) : Operation (Option ClassRef))) indexes)
      fun _ state => (∀ index ∈ indexes, state.metaspace.get index ≠ some klass) ∧ kept state := by
  induction indexes generalizing kept with
  | nil => exact .pure _ fun _ holds => ⟨by simp, holds⟩
  | cons index rest ih =>
    refine .bind (clearSlot_attains drops index) fun first => ?_
    refine .bind (ih ?_) fun others => .pure _ ?_
    · rintro before after ⟨cleared, holds⟩ dropped
      refine ⟨?_, drops _ _ holds dropped⟩
      cases dropped with
      | slot => exact fun held => cleared (Got.replaceIf_none_fewer held)
    · rintro state ⟨gone, cleared, holds⟩
      exact ⟨List.forall_mem_cons.mpr ⟨cleared, gone⟩, holds⟩

/-- No metaspace slot holds the live class when all have been cleared of it. -/
theorem clearing_attains
    (drops : ∀ before after, kept before → Drop klass before after → kept after) :
    Attains rely kept
      (Got.updateEach Cell.metaspace fun _ value =>
        (pure (if value = klass then none else some value) : Operation (Option ClassRef)))
      fun _ state => (∀ index, state.metaspace.get index ≠ some klass) ∧ kept state := by
  intro heard cell holds
  have sized : ∀ before after, before.metaspace.size = cell.state.metaspace.size ∧ kept before →
      Drop klass before after → after.metaspace.size = cell.state.metaspace.size ∧ kept after := by
    rintro before after ⟨size, held⟩ dropped
    refine ⟨?_, drops _ _ held dropped⟩
    cases dropped with
    | slot => rw [← size, Got.replaceIf_size]
  have cleared : Attains rely _ _ _ :=
    clearSlots_attains sized (List.range cell.state.metaspace.size)
  refine (cleared heard cell ⟨rfl, holds⟩).weaken ?_
  rintro later visits after - ⟨gone, size, held⟩
  refine ⟨fun index there => ?_, held⟩
  have inside := Got.get_inside there
  exact gone index (List.mem_range.mpr (size ▸ inside)) there

end Clearing

/-! ## What is condemned -/

theorem unbind_since (klass : ClassRef) (start : State) :
    Attains rely (fun state => state = start) (Operation.alter fun state => state.unbind klass)
      fun _ state => start.Grows state := by
  apply Attains.alter
  rintro state rfl
  exact .of_slots rfl

section Sweeps

variable (grows : ∀ before after, rely before after → before.Grows after)
include grows

/-- The two sweeps of a class that goes. -/
theorem sweeps_fell (closing : Closing select) (entry : ClassEntry) {α : Type}
    {rest : SweepReport → SweepReport → Operation α} {post : α → State → Prop}
    (onward : ∀ dependents own, Attains rely
      (fun state => (∀ codeId, Involved image select entry start codeId → state.Dead codeId) ∧
        start.Grows state)
      (rest dependents own) post) :
    Attains rely (fun state => start.Grows state)
      (do rest (← invalidateDependents image entry) (← invalidateClass image entry.classId select))
      post := by
  have since : Lasting rely fun state => start.Grows state := lasting_since grows start
  have kept : Lasting rely fun state =>
      (∀ codeId, image.Depends entry codeId → state.Dead codeId) ∧ start.Grows state :=
    .of_grows grows fun holds grown =>
      ⟨fun codeId depends => grown.dead (holds.1 codeId depends), holds.2.trans grown⟩
  have settling (codeId : Nat) : Lasting rely fun state =>
      ((start.phase? codeId).any select = true → state.Dead codeId) ∧
        (∀ codeId, image.Depends entry codeId → state.Dead codeId) ∧ start.Grows state := by
    refine .and ?_ kept
    exact .of_grows grows fun holds grown selected => grown.dead (holds selected)
  refine .bind (invalidateDependents_attains grows image since entry) fun dependents => ?_
  have swept : Attains rely
      (fun state => (∀ codeId, image.Depends entry codeId → state.Dead codeId) ∧ start.Grows state)
      (invalidateClass image entry.classId select) fun _ state =>
        (∀ codeId ∈ image.codesOf entry.classId, (start.phase? codeId).any select = true →
          state.Dead codeId) ∧
        (∀ codeId, image.Depends entry codeId → state.Dead codeId) ∧ start.Grows state :=
    invalidateSelected_attains grows image settling kept (fun _ _ _ dead _ => dead)
      (fun _ _ holds unselected selected =>
        dead_of_unselected closing holds.2 selected unselected) _
  refine .bind swept fun own => (onward dependents own).of_stronger ?_
  rintro state ⟨settled, depend, grown⟩
  refine ⟨?_, grown⟩
  rintro codeId (depends | ⟨assigned, selected⟩)
  · exact depend codeId depends
  · exact settled codeId (mem_codesOf assigned) selected

theorem sweep_condemns (image : Image) (name : String) (start : State) :
    Attains rely (fun state => state = start) (sweep image name) fun _ state =>
      ∀ codeId, Condemns image start (.sweep name) codeId → state.Dead codeId := by
  refine .bind (findClass_attains name) fun found => .given fun same => ?_
  cases found with
  | none =>
    refine .pure _ ?_
    rintro state - codeId ⟨known, depends⟩
    cases (same _).mp known
  | some entry =>
    have since : Lasting rely fun state => start.Grows state := lasting_since grows start
    refine (invalidateDependents_attains grows image since entry).weaken ?_ ?_
    · rintro state rfl
      exact .refl _
    · rintro report state ⟨dead, -⟩ codeId ⟨known, depends⟩
      cases (same _).mp known
      exact dead codeId depends

theorem flush_condemns (image : Image) (klass : ClassRef) (start : State) :
    Attains rely (fun state => state = start) (flush image klass) fun _ state =>
      ∀ codeId, Condemns image start (.flush klass) codeId → state.Dead codeId := by
  refine .bind (.look_at _ start) fun found => .given fun known => ?_
  cases found with
  | none =>
    refine .pure _ ?_
    rintro state - codeId condemned
    cases condemned with
    | flushed depends =>
      obtain ⟨entry, other, -⟩ := isDependent_iff.mp depends
      cases known.trans other
    | redefined other own resolved => cases known.trans other
  | some entry =>
    refine .bind (unbind_since klass start) fun _ => ?_
    refine sweeps_fell grows closing_resolved entry fun dependents own => ?_
    refine .bind (.note _ _ _) fun _ => .pure _ ?_
    rintro state ⟨fell, -⟩ codeId condemned
    cases condemned with
    | flushed depends =>
      obtain ⟨other, found, depends⟩ := isDependent_iff.mp depends
      cases known.trans found
      exact fell codeId (.inl depends)
    | redefined found own resolved =>
      cases known.trans found
      exact fell codeId (.inr ⟨own, by simp [resolved]⟩)

theorem unload_condemns (image : Image) (klass : ClassRef) (start : State) :
    Attains rely (fun state => state = start) (unload image klass) fun _ state =>
      ∀ codeId, Condemns image start (.unload klass) codeId → state.Dead codeId := by
  refine .bind (.look_at _ start) fun found => .given fun known => ?_
  refine .bind (unbind_since klass start) fun _ => .bind (clearing_attains ?_) fun _ => ?_
  · intro before after since dropped
    cases dropped
    exact since.trans (.of_slots rfl)
  cases found with
  | none =>
    refine .pure _ ?_
    rintro state - codeId condemned
    cases condemned with
    | unloaded depends =>
      obtain ⟨entry, other, -⟩ := isDependent_iff.mp depends
      cases known.trans other
    | retired other own => cases known.trans other
  | some entry =>
    refine .of_stronger (sweeps_fell grows closing_alive entry fun dependents own => ?_)
      fun _ holds => holds.2
    refine .bind (.note _ _ _) fun _ => .pure _ ?_
    rintro state ⟨fell, grown⟩ codeId condemned
    cases condemned with
    | unloaded depends =>
      obtain ⟨other, found, depends⟩ := isDependent_iff.mp depends
      cases known.trans found
      exact fell codeId (.inl depends)
    | retired found own =>
      cases known.trans found
      cases alive : (start.phase? codeId).any fun phase => phase != .invalidated with
      | true => exact fell codeId (.inr ⟨own, alive⟩)
      | false => exact dead_of_invalidated grown alive

/-- What a call condemns is dead when the call replies. -/
theorem perform_condemns (image : Image) (call : Call) (start : State) :
    Attains rely (fun state => state = start) (perform image call) fun _ state =>
      ∀ codeId, Condemns image start call codeId → state.Dead codeId := by
  have harmless (none : ∀ codeId, ¬Condemns image start call codeId) :
      Attains rely (fun state => state = start) (perform image call) fun _ state =>
        ∀ codeId, Condemns image start call codeId → state.Dead codeId := by
    have always : Attains rely (fun _ => True) (perform image call) fun _ _ => True :=
      .of_follows (perform_follows call) (fun _ _ _ _ => trivial) (fun _ _ _ _ _ => trivial)
        fun _ _ _ _ _ => trivial
    exact always.weaken (fun _ _ => trivial) fun _ _ _ codeId condemned =>
      absurd condemned (none codeId)
  cases call with
  | sweep name => exact sweep_condemns grows image name start
  | flush klass => exact flush_condemns grows image klass start
  | unload klass => exact unload_condemns grows image klass start
  | _ => exact harmless nofun

end Sweeps

/-! ## What is forgotten -/

/-- A live class is not bound, and the other ones are bound as before. -/
def Forgotten (klass : ClassRef) (start state : State) : Prop :=
  ∀ other, state.binding? other = if other = klass then none else start.binding? other

theorem forgotten_unbind (klass : ClassRef) (start : State) :
    Forgotten klass start (start.unbind klass) :=
  fun other => binding_unbind start klass other

/-- Taking code out of use touches neither bindings nor metaspace slots. -/
theorem lasting_tables (property : List (ClassRef × Nat) → Got ClassRef → Prop) :
    Lasting State.Beside fun state => property state.bindings state.metaspace where
  revoke holds revoked := by
    cases revoked <;> exact holds
  deoptimize holds deoptimized := by
    cases deoptimized
    exact holds
  relied holds onward := by
    rw [State.Beside] at onward
    rw [onward]
    exact holds

/-- The sweeps of a class that goes touch neither bindings nor metaspace slots. -/
theorem sweeps_spare_tables (property : List (ClassRef × Nat) → Got ClassRef → Prop)
    (entry : ClassEntry) {α : Type} {rest : SweepReport → SweepReport → Operation α}
    {post : α → State → Prop}
    (onward : ∀ dependents own, Ensures (fun state => property state.bindings state.metaspace)
      (rest dependents own) post) :
    Ensures (fun state => property state.bindings state.metaspace)
      (do rest (← invalidateDependents image entry) (← invalidateClass image entry.classId select))
      post := by
  have dependents : (invalidateDependents image entry).Follows (revokeConduct image State.Beside) :=
    invalidateDependents_follows entry
  have own : (invalidateClass image entry.classId select).Follows
      (revokeConduct image State.Beside) := invalidateSelected_follows select _
  refine .bind (revokes_last (lasting_tables property) dependents) fun first => ?_
  exact .bind (revokes_last (lasting_tables property) own) fun second => onward first second

theorem flush_forgets (klass : ClassRef) (start : State)
    (unknown : entryOf image start klass = none → start.binding? klass = none) :
    Ensures (fun state => state = start) (flush image klass) fun _ => Forgotten klass start := by
  refine .bind (.look_at _ start) fun found => .given fun known => ?_
  cases found with
  | none =>
    refine .pure _ ?_
    rintro state rfl other
    split
    · rename_i same
      exact same ▸ unknown known.symm
    · rfl
  | some entry =>
    have dropped : Ensures (fun state => state = start)
        (Operation.alter fun state => state.unbind klass) fun _ => Forgotten klass start := by
      apply Attains.alter
      rintro state rfl
      exact forgotten_unbind klass state
    refine .bind dropped fun _ => ?_
    refine sweeps_spare_tables (fun bindings _ => ∀ other, bindings.lookup other =
      if other = klass then none else start.binding? other) entry fun dependents own => ?_
    exact .bind (.note _ _ _) fun _ => .pure _ fun _ holds => holds

theorem unload_forgets (klass : ClassRef) (start : State) :
    Ensures (fun state => state = start) (unload image klass) fun _ state =>
      Forgotten klass start state ∧ ∀ index, state.metaspace.get index ≠ some klass := by
  refine .bind (.look_at _ start) fun found => .given fun known => ?_
  have dropped : Ensures (fun state => state = start)
      (Operation.alter fun state => state.unbind klass) fun _ => Forgotten klass start := by
    apply Attains.alter
    rintro state rfl
    exact forgotten_unbind klass state
  refine .bind dropped fun _ => .bind (clearing_attains ?_) fun _ => ?_
  · rintro before after forgotten ⟨⟩
    exact forgotten
  cases found with
  | none => exact .pure _ fun _ holds => ⟨holds.2, holds.1⟩
  | some entry =>
    refine sweeps_spare_tables (fun bindings metaspace =>
      (∀ index, metaspace.get index ≠ some klass) ∧
      ∀ other, bindings.lookup other = if other = klass then none else start.binding? other) entry
      fun dependents own => ?_
    exact .bind (.note _ _ _) fun _ => .pure _ fun _ holds => ⟨holds.2, holds.1⟩

end Precompiled.Heap
