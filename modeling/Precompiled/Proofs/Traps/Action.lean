import Precompiled.Got
import Precompiled.Proofs.Dialogue.Conduct
import Precompiled.Proofs.Dialogue.Evaluation
import Precompiled.Proofs.Traps.Machine

/-! Actions that may trap. As long as its surroundings keep up a property of the state, an
action can be shown not to trap by keeping pace with one that has no partial expressions:
both ask the same questions in the same states, and at the end they agree on the state
while their results are related. -/
namespace Precompiled

/-- An action that may trap. -/
abbrev Guarded (S : Signature) (σ α : Type) : Type :=
  ExceptT Trap (Action S σ) α

variable {S T : Signature} {σ α β γ ω : Type} {kept : σ → Prop} {same : α → β → Prop}
  {related : γ → ω → Prop}

/-- The first dialogue does not trap and keeps pace with the second, provided that the
property `kept` holds again whenever a question is answered. -/
inductive Dialogue.Mirrors (kept : σ → Prop) (same : α → β → Prop) :
    Dialogue S σ (Except Trap α) → Dialogue S σ β → Prop where
  | done {value : α} {result : β} {state : σ} (held : kept state) (known : same value result) :
    Mirrors kept same (.done (.ok value) state) (.done result state)
  | ask {request : S.Request} {state : σ}
    {resume : S.Answer request → σ → Dialogue S σ (Except Trap α)}
    {plain : S.Answer request → σ → Dialogue S σ β} (held : kept state)
    (resumed : ∀ answer after, kept after → Mirrors kept same (resume answer after)
      (plain answer after)) :
    Mirrors kept same (.ask request state resume) (.ask request state plain)

/-- The dialogue preserves a property of the state, provided that it holds again whenever
a question is answered. -/
def Dialogue.Keeps (kept : σ → Prop) : Dialogue S σ α → Prop
  | .done _ state => kept state
  | .ask _ state resume =>
    kept state ∧ ∀ answer after, kept after → (resume answer after).Keeps kept

namespace Dialogue.Mirrors

variable {dialogue : Dialogue S σ (Except Trap α)} {plain : Dialogue S σ β}

theorem bind {next : α → Guarded S σ γ} {other : β → Action S σ ω}
    (first : dialogue.Mirrors kept same plain)
    (second : ∀ value result state, kept state → same value result →
      Dialogue.Mirrors kept related (next value state) (other result state)) :
    (dialogue.bind fun outcome after => ExceptT.bindCont next outcome after).Mirrors kept related
      (plain.bind fun result after => other result after) := by
  induction first with
  | done held known => exact second _ _ _ held known
  | ask held _ ih => exact .ask held fun answer after holds => ih answer after holds

theorem weaken {more : α → β → Prop} (mirrors : dialogue.Mirrors kept same plain)
    (implies : ∀ value result, same value result → more value result) :
    dialogue.Mirrors kept more plain := by
  induction mirrors with
  | done held known => exact .done held (implies _ _ known)
  | ask held _ ih => exact .ask held ih

/-- Whoever is asked, the dialogues keep pace inside larger surroundings. -/
theorem answeredBy {question : S.Request → T.Request}
    {answer : (request : S.Request) → T.Answer (question request) → S.Answer request}
    (mirrors : dialogue.Mirrors kept same plain) :
    (dialogue.answeredBy fun request state =>
        (.ask (question request) state fun told after => .done (answer request told) after :
          Dialogue T σ (S.Answer request))).Mirrors kept same
      (plain.answeredBy fun request state =>
        (.ask (question request) state fun told after => .done (answer request told) after :
          Dialogue T σ (S.Answer request))) := by
  induction mirrors with
  | done held known => exact .done held known
  | ask held _ ih => exact .ask held fun told after holds => ih (answer _ told) after holds

end Dialogue.Mirrors

namespace Guarded

/-- The action does not trap and keeps pace with the other one, wherever the property
holds. -/
def Mirrors (kept : σ → Prop) (same : α → β → Prop) (guarded : Guarded S σ α)
    (plain : Action S σ β) : Prop :=
  ∀ state, kept state → Dialogue.Mirrors kept same (guarded state) (plain state)

variable {guarded : Guarded S σ α} {plain : Action S σ β} {next : α → Guarded S σ γ}
  {other : β → Action S σ ω}

theorem Mirrors.bind (first : guarded.Mirrors kept same plain)
    (second : ∀ value result, same value result →
      Mirrors kept related (next value) (other result)) :
    Mirrors kept related (guarded >>= next) (plain >>= other) :=
  fun state held => (first state held).bind fun value result after holds known =>
    second value result known after holds

theorem Mirrors.weaken {more : α → β → Prop} (mirrors : guarded.Mirrors kept same plain)
    (implies : ∀ value result, same value result → more value result) :
    guarded.Mirrors kept more plain :=
  fun state held => (mirrors state held).weaken implies

/-- A view of the result that only the other action takes. -/
theorem Mirrors.view {view : β → ω} {more : α → ω → Prop}
    (mirrors : guarded.Mirrors kept same plain)
    (implies : ∀ value result, same value result → more value (view result)) :
    Mirrors kept more guarded (plain >>= fun result => pure (view result)) := by
  intro state held
  have first := mirrors state held
  rw [Action.bind_apply]
  generalize guarded state = dialogue, plain state = other at first
  induction first with
  | done holds known => exact .done holds (implies _ _ known)
  | ask holds _ ih => exact .ask holds ih

theorem mirrors_pure {value : α} {result : β} (known : same value result) :
    Mirrors kept same (pure value : Guarded S σ α) (pure result) :=
  fun _ held => .done held known

/-- A result that only the guarded action has is dropped. -/
theorem Mirrors.forget {other : Action S σ Unit} {same : α → Unit → Prop}
    (mirrors : guarded.Mirrors kept same other) :
    Mirrors kept (· = ·) (guarded >>= fun _ => pure ()) other := by
  have ending : other = other >>= fun _ => pure () := by
    funext state
    rw [Action.bind_apply]
    generalize other state = dialogue
    induction dialogue with
    | done result after => rfl
    | ask request after resume ih => exact congrArg _ (funext fun answer => funext (ih answer))
  rw [ending]
  exact mirrors.bind fun _ _ _ => mirrors_pure rfl

/-- A partial expression that has a value is as good as the value. -/
theorem evaluate_bind {expression : Trapping α} {value : α} (has : expression = .ok value)
    (next : α → Guarded S σ γ) :
    ((liftM expression : Guarded S σ α) >>= next) = next value := by
  rw [has]
  rfl

/-- A look at the state by partial expressions. -/
def look (view : σ → Trapping α) : Guarded S σ α :=
  fun state => .done (view state) state

theorem look_mirrors {view : σ → Trapping α} {plain : σ → β}
    (sees : ∀ state, kept state → ∃ value, view state = .ok value ∧ same value (plain state)) :
    Mirrors kept same (look view : Guarded S σ α) (Action.read plain) := by
  intro state held
  obtain ⟨value, seen, known⟩ := sees state held
  rw [look, seen]
  exact .done held known

/-- A look that always sees the same is as good as what it sees. -/
theorem look_bind {view : σ → Trapping α} {value : α} {next : α → Guarded S σ γ}
    {plain : Action S σ ω} (sees : ∀ state, kept state → view state = .ok value)
    (onward : Mirrors kept related (next value) plain) :
    Mirrors kept related ((look view : Guarded S σ α) >>= next) plain := by
  intro state held
  have seen : ((look view : Guarded S σ α) >>= next) state = next value state := by
    change ExceptT.bindCont next (view state) state = next value state
    rw [sees state held]
    rfl
  rw [seen]
  exact onward state held

/-- A change of the state by partial expressions. -/
def change (step : σ → Trapping (α × σ)) : Guarded S σ α := fun state =>
  match step state with
  | .error trap => .done (.error trap) state
  | .ok (result, after) => .done (.ok result) after

theorem change_mirrors {step : σ → Trapping (α × σ)} {plain : σ → α × σ}
    (steps : ∀ state, kept state → step state = .ok (plain state) ∧ kept (plain state).2) :
    Mirrors kept (· = ·) (change step : Guarded S σ α) (Action.step plain) := by
  intro state held
  obtain ⟨done, holds⟩ := steps state held
  rw [change, done]
  exact .done holds rfl

end Guarded

/-! ## Actions without partial expressions -/

namespace Action

/-- The action preserves the property. -/
def Keeps (kept : σ → Prop) (action : Action S σ α) : Prop :=
  ∀ state, kept state → (action state).Keeps kept

variable {action : Action S σ α} {next : α → Action S σ γ}

theorem Keeps.bind (keeps : action.Keeps kept) (onward : ∀ value, (next value).Keeps kept) :
    (action >>= next).Keeps kept := by
  intro state held
  have first := keeps state held
  rw [bind_apply]
  generalize action state = dialogue at first
  induction dialogue with
  | done value after => exact onward value after first
  | ask request after resume ih =>
    exact ⟨first.1, fun answer later holds => ih answer later (first.2 answer later holds)⟩

theorem keeps_pure (value : α) : (pure value : Action S σ α).Keeps kept :=
  fun _ held => held

theorem keeps_read (view : σ → α) : (read view : Action S σ α).Keeps kept :=
  fun _ held => held

theorem keeps_update {step : σ → σ} (preserves : ∀ state, kept state → kept (step state)) :
    (update step : Action S σ Unit).Keeps kept :=
  preserves

theorem keeps_step {step : σ → α × σ} (preserves : ∀ state, kept state → kept (step state).2) :
    (Action.step step : Action S σ α).Keeps kept :=
  preserves

/-- A change without partial expressions, and what is known of its result. -/
theorem step_mirrors {step : σ → α × σ} {same : α → α → Prop}
    (steps : ∀ state, kept state → same (step state).1 (step state).1 ∧ kept (step state).2) :
    Guarded.Mirrors kept same (liftM (Action.step step : Action S σ α) : Guarded S σ α)
      (Action.step step) :=
  fun state held => .done (steps state held).2 (steps state held).1

/-- What has no partial expressions does not trap. -/
theorem Keeps.lift (keeps : action.Keeps kept) :
    Guarded.Mirrors kept (· = ·) (liftM action : Guarded S σ α) action := by
  intro state held
  have first := keeps state held
  have lifted : (liftM action : Guarded S σ α) state =
      (action state).bind fun value after => .done (.ok value) after := rfl
  rw [lifted]
  generalize action state = dialogue at first
  induction dialogue with
  | done value after => exact .done first rfl
  | ask request after resume ih =>
    exact .ask first.1 fun answer later holds => ih answer later (first.2 answer later holds)

/-! ## Tables of references -/

section Tables

variable {part : Part (Got α) σ}
  (sets : ∀ state table, kept state → kept (part.set table state))
include sets

theorem keeps_getOrResolve (index : Nat) {resolve : Action S σ (Option α)}
    (keeps : resolve.Keeps kept) : (Got.getOrResolve part index resolve).Keeps kept := by
  refine (keeps_read _).bind fun table => ?_
  split
  · exact keeps_pure _
  · split
    · exact keeps_pure _
    · refine keeps.bind fun value => ?_
      cases value with
      | none => exact keeps_pure _
      | some value => exact fun state held => sets state _ held

variable [DecidableEq α] {visit : Nat → α → Action S σ (Option α)}
  (visits : ∀ index value, (visit index value).Keeps kept)
include visits

theorem keeps_updateSlots (indices : List Nat) :
    (Got.updateSlots part visit indices).Keeps kept := by
  induction indices with
  | nil => exact keeps_pure _
  | cons index rest ih =>
    refine Keeps.bind ?_ fun first => ih.bind fun others => keeps_pure _
    refine (keeps_read _).bind fun table => ?_
    cases table.get index with
    | none => exact keeps_pure _
    | some seen =>
      refine (visits index seen).bind fun value => ?_
      have stores : (within part (update (Got.replaceIf index seen value)) :
          Action S σ Unit).Keeps kept := fun state held => sets state _ held
      exact stores.bind fun _ => keeps_pure _

theorem keeps_updateEach : (Got.updateEach part visit).Keeps kept :=
  (keeps_read _).bind fun _ => keeps_updateSlots sets visits _

end Tables

end Action

end Precompiled
