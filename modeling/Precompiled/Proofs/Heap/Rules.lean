import Precompiled.Proofs.Dialogue.Evaluation
import Precompiled.Proofs.Got.Slots
import Precompiled.Proofs.Heap.Change

/-! The building blocks of operations on a heap, and what conduct they keep to. -/
namespace Precompiled

variable {S : Signature} {α β : Type}

/-! ## Tables of references -/

namespace Got

variable {σ : Type} {conduct : Conduct S σ} {part : Part (Got α) σ}

/-- Resolving a slot keeps to a conduct that allows filling it with what the
callback answers. It ends with what the slot held, with what was stored in it, or with
nothing. -/
theorem obeys_getOrResolve {index : Nat} {resolve : Action S σ (Option α)}
    {post : Option α → σ → Prop} (known : S.Heard → Option α → Prop)
    (resolves : resolve.Obeys conduct fun heard answer _ => known heard answer)
    (fills : ∀ heard value state, known heard (some value) →
      conduct.change heard state (part.set (setIfNull index value (part.get state)).2 state))
    (nothing : ∀ state, post none state)
    (held : ∀ value state, (part.get state).get index = some value → post (some value) state)
    (stored : ∀ value state, post (setIfNull index value (part.get state)).1
      (part.set (setIfNull index value (part.get state)).2 state)) :
    (getOrResolve part index resolve).Obeys conduct fun _ result state => post result state := by
  intro heard state
  simp only [getOrResolve, Action.bind_apply, Action.read_apply, Dialogue.bind_done]
  cases found : (part.get state).get index with
  | some value => exact ⟨.refl, held value state found⟩
  | none =>
    dsimp only
    split
    · exact ⟨.refl, nothing state⟩
    · refine (resolves heard state).bind fun later answer after _ told => ?_
      cases answer with
      | none => exact ⟨.refl, nothing after⟩
      | some value => exact ⟨.single (fills later value after told), stored value after⟩

theorem follows_getOrResolve {index : Nat} {resolve : Action S σ (Option α)}
    (known : S.Heard → Option α → Prop)
    (resolves : resolve.Obeys conduct fun heard answer _ => known heard answer)
    (fills : ∀ heard value state, known heard (some value) →
      conduct.change heard state (part.set (setIfNull index value (part.get state)).2 state)) :
    (getOrResolve part index resolve).Follows conduct :=
  obeys_getOrResolve known resolves fills (fun _ => trivial) (fun _ _ _ => trivial)
    fun _ _ => trivial

variable [DecidableEq α]

/-- Updating every slot keeps to a conduct that allows replacing a value by what
the visitor answers. -/
theorem follows_updateEach {visit : Nat → α → Action S σ (Option α)}
    (known : S.Heard → α → Option α → Prop)
    (visits : ∀ index seen state, (part.get state).get index = some seen → ∀ heard,
      (visit index seen state).Obeys conduct (fun later value _ => known later seen value) heard
        state)
    (replaces : ∀ heard index seen value state, known heard seen value →
      conduct.change heard state (part.set (replaceIf index seen value (part.get state)) state)) :
    (updateEach part visit).Follows conduct := by
  have one : ∀ index, (updateSlot part visit index).Follows conduct := by
    intro index heard state
    simp only [updateSlot, Action.bind_apply, Action.read_apply, Dialogue.bind_done]
    cases held : (part.get state).get index with
    | none => exact ⟨.refl, trivial⟩
    | some seen =>
      refine (visits index seen state held heard).bind fun later value after _ told => ?_
      exact ⟨.single (replaces later index seen value after told), trivial⟩
  refine Action.Follows.bind (Action.follows_read _) fun table => ?_
  induction List.range table.size with
  | nil => exact Action.follows_pure _
  | cons index rest ih =>
    refine Action.Follows.bind (one index) fun first => ?_
    exact Action.Follows.bind ih fun others => Action.follows_pure _

end Got

/-! ## Operations -/

namespace Heap

variable {change : Engine.signature.Heard → State → State → Prop}
  {question : Engine.Request → State → State → Prop} {rely : State → State → Prop}

theorem follows_look (view : State → α) :
    (Operation.look view).Follows (stateConduct change question rely) :=
  Action.follows_read _

theorem follows_count (bump : Counters → Counters) :
    (Operation.count bump).Follows (stateConduct change question rely) :=
  Action.follows_update fun _ _ => .inl rfl

theorem follows_note (level : Level) (topic : Topic) (text : String) :
    (Operation.note level topic text).Follows (stateConduct change question rely) :=
  Action.follows_update fun _ _ => .inl rfl

theorem follows_alter {step : State → State}
    (allowed : ∀ heard state, change heard state (step state)) :
    (Operation.alter step).Follows (stateConduct change question rely) :=
  Action.follows_update fun heard cell => .inr (allowed heard cell.state)

theorem obeys_ask {request : Engine.Request} (allowed : ∀ state, question request state state) :
    (Operation.ask request).Obeys (stateConduct change question rely)
      fun heard answer _ => heard request answer :=
  Action.obeys_ask fun _ cell => allowed cell.state

theorem follows_ask {request : Engine.Request} (allowed : ∀ state, question request state state) :
    (Operation.ask request).Follows (stateConduct change question rely) :=
  (obeys_ask allowed).follows

/-- A table of the state is resolved by asking the engine. -/
theorem follows_resolve {part : Part (Got α) Cell} {index : Nat}
    {resolve : Operation (Option α)} (known : Engine.signature.Heard → Option α → Prop)
    (resolves : resolve.Obeys (stateConduct change question rely) fun heard answer _ =>
      known heard answer)
    (fills : ∀ heard value (cell : Cell), known heard (some value) →
      change heard cell.state
        (part.set (Got.setIfNull index value (part.get cell)).2 cell).state) :
    (Got.getOrResolve part index resolve).Follows (stateConduct change question rely) :=
  Got.follows_getOrResolve known resolves fun heard value cell told => .inr (fills heard value cell told)

/-- What resolving a slot yields the slot then holds. -/
theorem obeys_resolve {part : Part (Got α) Cell}
    (lawful : ∀ table cell, part.get (part.set table cell) = table) {index : Nat}
    {resolve : Operation (Option α)} (known : Engine.signature.Heard → Option α → Prop)
    (resolves : resolve.Obeys (stateConduct change question rely) fun heard answer _ =>
      known heard answer)
    (fills : ∀ heard value (cell : Cell), known heard (some value) →
      change heard cell.state
        (part.set (Got.setIfNull index value (part.get cell)).2 cell).state) :
    (Got.getOrResolve part index resolve).Obeys (stateConduct change question rely)
      fun _ result cell => ∀ value, result = some value → (part.get cell).get index = some value := by
  refine Got.obeys_getOrResolve known resolves
    (fun heard value cell told => .inr (fills heard value cell told)) nofun ?_ ?_
  · rintro value cell held other ⟨⟩
    exact held
  · intro value cell other yielded
    rw [lawful]
    exact Got.setIfNull_value yielded

/-- Changing one slot keeps to a conduct that allows the change of that slot. -/
theorem follows_changeSlot {codeId : Nat} {step : Slot → α × Slot}
    (allowed : ∀ heard (state : State) slot, state.slots[codeId]? = some slot →
      change heard state { state with slots := state.slots.set codeId (step slot).2 }) :
    (Operation.changeSlot codeId step).Follows (stateConduct change question rely) := by
  intro heard cell
  cases found : cell.state.slots[codeId]? with
  | none =>
    simp only [Operation.changeSlot, Operation.change, Action.step_apply, found]
    exact ⟨.refl, trivial⟩
  | some slot =>
    simp only [Operation.changeSlot, Operation.change, Action.step_apply, found]
    exact ⟨.single (.inr (allowed heard cell.state slot found)), trivial⟩

/-- A step for each item keeps to the conduct of the single steps. If none of them fails,
what each of them brings about is there at the end, as long as nobody takes it away. -/
theorem obeys_forEach {step : α → Operation (Except Error β)} {there : α → Cell → Prop}
    (each : ∀ item, (step item).Obeys (stateConduct change question rely) fun _ outcome cell =>
      ∀ value, outcome = .ok value → there item cell)
    (spares : ∀ item, (stateConduct change question rely).Spares (there item))
    (relied : ∀ item before after, there item before →
      (stateConduct change question rely).rely before after → there item after)
    (items : List α) :
    (forEach step items).Obeys (stateConduct change question rely) fun _ outcome cell =>
      outcome = .ok () → ∀ item ∈ items, there item cell := by
  induction items with
  | nil => exact fun _ _ => ⟨.refl, fun _ _ among => (List.not_mem_nil among).elim⟩
  | cons item rest ih =>
    refine Action.Obeys.bind (each item) fun outcome heard cell done => ?_
    cases outcome with
    | error error => exact ⟨.refl, nofun⟩
    | ok value =>
      refine ((ih heard cell).keeps (spares item) (relied item) (done value rfl)).weaken ?_
      rintro later result after - ⟨others, own⟩ finished
      exact List.forall_mem_cons.mpr ⟨own, others finished⟩

theorem follows_forEach {step : α → Operation (Except Error β)}
    (each : ∀ item, (step item).Follows (stateConduct change question rely)) (items : List α) :
    (forEach step items).Follows (stateConduct change question rely) := by
  have obeys : ∀ item, (step item).Obeys (stateConduct change question rely) fun _ outcome _ =>
      ∀ value, outcome = .ok value → True :=
    fun item heard cell => (each item heard cell).weaken fun _ _ _ _ _ _ _ => trivial
  exact (obeys_forEach obeys (fun _ => ⟨fun _ _ => trivial, fun _ _ => trivial⟩)
    (fun _ _ _ _ _ => trivial) items).follows

/-! ## Publishing and invalidating -/

/-- A slot that is replaced by itself stays as it is. -/
theorem State.set_same {state : State} {codeId : Nat} {slot : Slot}
    (found : state.slots[codeId]? = some slot) :
    { state with slots := state.slots.set codeId slot } = state := by
  obtain ⟨bound, same⟩ := List.getElem?_eq_some_iff.mp found
  rw [← same, List.set_getElem_self bound]

/-- Publishing is one step that leads to the notice of the engine, or nothing. -/
theorem follows_publish {image : Image} {code : LinkedCode}
    (installs : ∀ before after, Install image code before after →
      question (.install code) before after)
    (strays : ∀ heard (state : State) slot, state.slots[code.codeId]? = some slot →
      slot.phase = .resolved → slot.handle = none →
      change heard state { state with slots := state.slots.set code.codeId (slot.publish code).2 }) :
    (publish image code).Follows (stateConduct change question rely) := by
  intro heard cell
  cases found : cell.state.slots[code.codeId]? with
  | none =>
    simp only [publish, Operation.changeSlot, Operation.change, Action.bind_apply,
      Action.step_apply, found, Dialogue.bind_done]
    exact (Action.Follows.bind (follows_note _ _ _) fun _ => Action.follows_pure _) heard cell
  | some slot =>
    simp only [publish, Operation.changeSlot, Operation.change, Action.bind_apply,
      Action.step_apply, found, Dialogue.bind_done]
    obtain ⟨phase, handle, admitted⟩ := slot
    cases phase with
    | invalidated => exact ⟨.single (.inl (State.set_same found)), trivial⟩
    | resolved =>
      cases handle with
      | none => exact ⟨.single (.inr (strays heard cell.state _ found rfl rfl)), trivial⟩
      | some winner => exact ⟨.single (.inl (State.set_same found)), trivial⟩
    | unresolved =>
      cases handle with
      | none =>
        exact ⟨⟨cell, .refl, installs _ _ (.slot found rfl rfl)⟩, fun _ _ _ _ _ _ =>
          ⟨.refl, trivial⟩⟩
      | some other => exact ⟨.single (.inl (State.set_same found)), trivial⟩

/-- The slot of a code id is executable and holds no stub. -/
def State.Runs (state : State) (codeId : Nat) (code : LinkedCode) : Prop :=
  ∃ slot : Slot, state.slots[codeId]? = some slot ∧ slot.executable = some code ∧
    code.isStub = false

/-- Nothing but a stub is executable in the slot of a code id. -/
def State.Idle (state : State) (codeId : Nat) : Prop :=
  ∀ code, ¬state.Runs codeId code

/-- The slot of a code id, if there is one, was invalidated or holds a stub. -/
def State.Dead (state : State) (codeId : Nat) : Prop :=
  ∀ slot : Slot, state.slots[codeId]? = some slot →
    slot.phase = .invalidated ∨ ∃ stub, slot.handle = some stub ∧ stub.isStub = true

theorem State.dead_of_slot {state : State} {codeId : Nat} {slot : Slot}
    (found : state.slots[codeId]? = some slot)
    (dead : slot.phase = .invalidated ∨ ∃ stub, slot.handle = some stub ∧ stub.isStub = true) :
    state.Dead codeId := by
  intro other there
  obtain rfl := Option.some.inj (found.symm.trans there)
  exact dead

/-- Nothing runs in a dead slot but a stub. -/
theorem State.Dead.idle {state : State} {codeId : Nat} (dead : state.Dead codeId) :
    state.Idle codeId := by
  rintro code ⟨slot, found, executable, method⟩
  obtain ⟨resolved, held⟩ := executable_some.mp executable
  rcases dead slot found with phase | ⟨stub, holds, isStub⟩
  · simp [resolved] at phase
  · obtain rfl := Option.some.inj (held.symm.trans holds)
    simp [isStub] at method

/-- Invalidating a slot is one step, which leads to the notice of the engine if
the slot held executable code. Afterwards the slot is dead. -/
theorem obeys_invalidateCode {codeId : Nat} {gone : State → Prop}
    (revokes : ∀ heard before after, Revoke before after → change heard before after)
    (deoptimizes : ∀ code before after, Deoptimize code before after →
      question (.deoptimize code) before after)
    (reached : ∀ state : State, state.Dead codeId → gone state)
    (lasting : ∀ before after, rely before after → gone before → gone after) :
    (invalidateCode codeId).Obeys (stateConduct change question rely)
      fun _ _ cell => gone cell.state := by
  intro heard cell
  cases found : cell.state.slots[codeId]? with
  | none =>
    simp only [invalidateCode, Operation.changeSlot, Operation.change, Action.bind_apply,
      Action.step_apply, found, Dialogue.bind_done]
    refine ⟨.refl, reached _ ?_⟩
    intro slot there
    simp [found] at there
  | some slot =>
    simp only [invalidateCode, Operation.changeSlot, Operation.change, Action.bind_apply,
      Action.step_apply, found, Dialogue.bind_done]
    obtain ⟨phase, handle, admitted⟩ := slot
    have revoked := fun quiet => revokes heard _ _ (Revoke.invalidate found quiet)
    obtain ⟨bound, -⟩ := List.getElem?_eq_some_iff.mp found
    have dead : gone { cell.state with
        slots := cell.state.slots.set codeId ⟨.invalidated, handle, admitted⟩ } :=
      reached _ (State.dead_of_slot (List.getElem?_set_self bound) (.inl rfl))
    by_cases stub : handle.any LinkedCode.isStub
    · have outcome : Slot.invalidate ⟨phase, handle, admitted⟩ = (.stub, ⟨phase, handle, admitted⟩) := by
        simp [Slot.invalidate, stub]
      simp only [outcome]
      refine ⟨.single (.inl (State.set_same found)), ?_⟩
      refine reached _ (State.dead_of_slot (List.getElem?_set_self bound) (.inr ?_))
      simpa [Option.any_eq_true] using stub
    cases phase with
    | invalidated =>
      have outcome : Slot.invalidate ⟨.invalidated, handle, admitted⟩ =
          (.alreadyInvalidated, ⟨.invalidated, handle, admitted⟩) := by
        simp [Slot.invalidate, stub]
      simp only [outcome]
      exact ⟨.single (.inl (State.set_same found)), dead⟩
    | unresolved =>
      have outcome : Slot.invalidate ⟨.unresolved, handle, admitted⟩ =
          (.invalidated false, ⟨.invalidated, handle, admitted⟩) := by
        simp [Slot.invalidate, stub]
      simp only [outcome] at revoked ⊢
      exact ⟨.single (.inr (revoked fun code executable => by cases executable)), dead⟩
    | resolved =>
      have outcome : Slot.invalidate ⟨.resolved, handle, admitted⟩ =
          (.invalidated true, ⟨.invalidated, handle, admitted⟩) := by
        simp [Slot.invalidate, stub]
      have present : (cell.state.slots.set codeId ⟨.invalidated, handle, admitted⟩)[codeId]?.bind
          Slot.handle = handle := by
        simp [bound]
      cases handle with
      | none =>
        simp only [outcome, countInvalidated, Operation.count, Operation.look, Action.bind_apply,
          Action.update_apply, Action.read_apply, Dialogue.bind_done, present] at revoked ⊢
        exact ⟨.single (.inr (revoked fun code executable => by cases executable)), dead⟩
      | some code =>
        have leads := deoptimizes code _ _ (Deoptimize.slot found rfl (by simpa using stub))
        simp only [outcome, countInvalidated, Operation.count, Operation.look, Action.bind_apply,
          Action.update_apply, Action.read_apply, Dialogue.bind_done, present] at leads ⊢
        exact ⟨⟨cell, .refl, leads⟩, fun _ _ _ _ _ onward => ⟨.refl, lasting _ _ onward dead⟩⟩

end Heap

end Precompiled
