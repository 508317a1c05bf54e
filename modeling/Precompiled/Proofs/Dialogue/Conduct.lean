import Mathlib.Logic.Relation
import Mathlib.Order.Basic
import Precompiled.Dialogue

/-! How a dialogue may behave while others share its state. A conduct says which
changes it may make, which change may lead to a question, and what it has to put
up with while the question is open. Knowledge comes from answers, and nobody
forgets an answer. -/
namespace Precompiled

open Relation (ReflTransGen)

/-- Which answers have been given. -/
abbrev Signature.Heard (S : Signature) :=
  (request : S.Request) → S.Answer request → Prop

structure Conduct (S : Signature) (σ : Type) where
  /-- A change without a question, given what was heard. -/
  change : S.Heard → σ → σ → Prop
  /-- The change right before a question. -/
  question : S.Heard → S.Request → σ → σ → Prop
  /-- What becomes of the state while a question is open. -/
  rely : σ → σ → Prop

variable {S : Signature} {σ α β : Type} {conduct : Conduct S σ}

/-- Nothing that the conduct allows breaks the property. -/
structure Conduct.Spares (conduct : Conduct S σ) (kept : σ → Prop) : Prop where
  changed : ∀ {heard before after}, kept before → conduct.change heard before after → kept after
  asked : ∀ {heard request before after}, kept before →
    conduct.question heard request before after → kept after

/-- Changes in a row break it no more than one. -/
theorem Conduct.Spares.changes {kept : σ → Prop} (spares : conduct.Spares kept) {heard : S.Heard}
    {before after : σ} (held : kept before)
    (changes : ReflTransGen (conduct.change heard) before after) : kept after := by
  induction changes with
  | refl => exact held
  | tail _ change ih => exact spares.changed ih change

namespace Dialogue

/-- The dialogue, begun in the state `before`, keeps to the conduct and comes to
an end that `post` approves of. -/
def Obeys (conduct : Conduct S σ) (post : S.Heard → α → σ → Prop) :
    S.Heard → σ → Dialogue S σ α → Prop
  | heard, before, .done result state =>
    ReflTransGen (conduct.change heard) before state ∧ post heard result state
  | heard, before, .ask request state resume =>
    (∃ middle, ReflTransGen (conduct.change heard) before middle ∧
      conduct.question heard request middle state) ∧
    ∀ later answer after, heard ≤ later → later request answer → conduct.rely state after →
      Obeys conduct post later after (resume answer after)

variable {heard : S.Heard} {before : σ} {dialogue : Dialogue S σ α}
  {post middle : S.Heard → α → σ → Prop}

/-- Allowed changes may come first. -/
theorem Obeys.after {start : σ} (obeys : dialogue.Obeys conduct post heard before)
    (changes : ReflTransGen (conduct.change heard) start before) :
    dialogue.Obeys conduct post heard start := by
  cases dialogue with
  | done result state => exact ⟨changes.trans obeys.1, obeys.2⟩
  | ask request state resume =>
    obtain ⟨⟨middle, onward, asked⟩, resumed⟩ := obeys
    exact ⟨⟨middle, changes.trans onward, asked⟩, resumed⟩

/-- A sequence obeys if its second half does wherever the first one ends. -/
theorem Obeys.bind {next : α → σ → Dialogue S σ β} {final : S.Heard → β → σ → Prop}
    (first : dialogue.Obeys conduct middle heard before)
    (second : ∀ later result state, heard ≤ later → middle later result state →
      (next result state).Obeys conduct final later state) :
    (dialogue.bind next).Obeys conduct final heard before := by
  induction dialogue generalizing heard before with
  | done result state =>
    exact (second heard result state le_rfl first.2).after first.1
  | ask request state resume ih =>
    refine ⟨first.1, fun later answer after more told onward => ?_⟩
    exact ih answer after (first.2 later answer after more told onward)
      fun last result state further => second last result state (more.trans further)

/-- A weaker demand on the end is met as well. -/
theorem Obeys.weaken {final : S.Heard → α → σ → Prop}
    (obeys : dialogue.Obeys conduct post heard before)
    (implies : ∀ later result state, heard ≤ later → post later result state →
      final later result state) :
    dialogue.Obeys conduct final heard before := by
  induction dialogue generalizing heard before with
  | done result state => exact ⟨obeys.1, implies heard result state le_rfl obeys.2⟩
  | ask request state resume ih =>
    refine ⟨obeys.1, fun later answer after more told onward => ?_⟩
    exact ih answer after (obeys.2 later answer after more told onward)
      fun last result state further => implies last result state (more.trans further)

/-- A property that the dialogue and its surroundings preserve still holds at the
end. -/
theorem Obeys.keeps {kept : σ → Prop} (obeys : dialogue.Obeys conduct post heard before)
    (spares : conduct.Spares kept)
    (relied : ∀ state after, kept state → conduct.rely state after → kept after)
    (initial : kept before) :
    dialogue.Obeys conduct (fun later result state => post later result state ∧ kept state)
      heard before := by
  induction dialogue generalizing heard before with
  | done result state => exact ⟨obeys.1, obeys.2, spares.changes initial obeys.1⟩
  | ask request state resume ih =>
    obtain ⟨⟨middle, changes, leads⟩, resumed⟩ := obeys
    refine ⟨⟨middle, changes, leads⟩, fun later answer after more told rely => ?_⟩
    exact ih answer after (resumed later answer after more told rely)
      (relied _ _ (spares.asked (spares.changes initial changes) leads) rely)

/-- What keeps to a strict conduct keeps to one that allows more. -/
theorem Obeys.loosen {other : Conduct S σ} (obeys : dialogue.Obeys conduct post heard before)
    (change : ∀ heard state after, conduct.change heard state after →
      other.change heard state after)
    (question : ∀ heard request state after, conduct.question heard request state after →
      other.question heard request state after)
    (rely : ∀ state after, other.rely state after → conduct.rely state after) :
    dialogue.Obeys other post heard before := by
  induction dialogue generalizing heard before with
  | done result state => exact ⟨ReflTransGen.mono (change heard) _ _ obeys.1, obeys.2⟩
  | ask request state resume ih =>
    obtain ⟨⟨middle, changes, leads⟩, resumed⟩ := obeys
    refine ⟨⟨middle, ReflTransGen.mono (change heard) _ _ changes, question _ _ _ _ leads⟩, ?_⟩
    intro later answer after more told onward
    exact ih answer after (resumed later answer after more told (rely _ _ onward))

/-- When a dialogue asks it still has what it and its surroundings preserve. -/
theorem Obeys.mindful {kept : σ → Prop} (obeys : dialogue.Obeys conduct post heard before)
    (spares : conduct.Spares kept)
    (relied : ∀ state after, kept state → conduct.rely state after → kept after)
    (initial : kept before) :
    dialogue.Obeys
      { conduct with question := fun heard request state after =>
          conduct.question heard request state after ∧ kept state } post heard before := by
  induction dialogue generalizing heard before with
  | done result state => exact obeys
  | ask request state resume ih =>
    obtain ⟨⟨middle, changes, leads⟩, resumed⟩ := obeys
    have held := spares.changes initial changes
    refine ⟨⟨middle, changes, leads, held⟩, fun later answer after more told rely => ?_⟩
    exact ih answer after (resumed later answer after more told rely)
      (relied _ _ (spares.asked held leads) rely)

/-! ### At a halt -/

/-- The state in which a dialogue has come to its end or to a question. -/
def present : Dialogue S σ α → σ
  | .done _ state => state
  | .ask _ state _ => state

/-- What is still to be kept of the conduct once the dialogue has come to its end or to
a question. -/
def Ready (conduct : Conduct S σ) (post : S.Heard → α → σ → Prop) (heard : S.Heard) :
    Dialogue S σ α → Prop
  | .done result state => post heard result state
  | .ask request state resume => ∀ later answer after, heard ≤ later → later request answer →
      conduct.rely state after → (resume answer after).Obeys conduct post later after

theorem Obeys.ready (obeys : dialogue.Obeys conduct post heard before) :
    dialogue.Ready conduct post heard := by
  cases dialogue with
  | done result state => exact obeys.2
  | ask request state resume => exact obeys.2

/-- What a dialogue spares still holds when it has come to its end or to a question. -/
theorem Obeys.spares {kept : σ → Prop} (obeys : dialogue.Obeys conduct post heard before)
    (spares : conduct.Spares kept) (initial : kept before) : kept dialogue.present := by
  cases dialogue with
  | done result state => exact spares.changes initial obeys.1
  | ask request state resume =>
    obtain ⟨middle, changes, asked⟩ := obeys.1
    exact spares.asked (spares.changes initial changes) asked

end Dialogue

namespace Action

/-- Begun in any state, the action keeps to the conduct and comes to an end that
`post` approves of. -/
def Obeys (conduct : Conduct S σ) (post : S.Heard → α → σ → Prop) (action : Action S σ α) : Prop :=
  ∀ heard state, (action state).Obeys conduct post heard state

/-- The action keeps to the conduct, however it ends. -/
abbrev Follows (conduct : Conduct S σ) (action : Action S σ α) : Prop :=
  action.Obeys conduct fun _ _ _ => True

variable {action : Action S σ α} {post : S.Heard → α → σ → Prop} {next : α → Action S σ β}

theorem Obeys.follows (obeys : action.Obeys conduct post) : action.Follows conduct :=
  fun heard state => (obeys heard state).weaken fun _ _ _ _ _ => trivial

theorem follows_pure (value : α) : (pure value : Action S σ α).Follows conduct :=
  fun _ _ => ⟨.refl, trivial⟩

theorem Obeys.bind {final : S.Heard → β → σ → Prop} (first : action.Obeys conduct post)
    (second : ∀ value heard state, post heard value state →
      (next value state).Obeys conduct final heard state) :
    (action >>= next).Obeys conduct final :=
  fun heard state => (first heard state).bind fun later value after _ known =>
    second value later after known

theorem Follows.bind (first : action.Follows conduct)
    (second : ∀ value, (next value).Follows conduct) : (action >>= next).Follows conduct :=
  Obeys.bind first fun value heard state _ => second value heard state

theorem follows_read (view : σ → α) : (read view : Action S σ α).Follows conduct :=
  fun _ _ => ⟨.refl, trivial⟩

theorem follows_update {step : σ → σ}
    (allowed : ∀ heard state, conduct.change heard state (step state)) :
    (update step : Action S σ Unit).Follows conduct :=
  fun heard state => ⟨.single (allowed heard state), trivial⟩

/-- A question that changes nothing beforehand; afterwards its answer is
known. -/
theorem obeys_ask {request : S.Request}
    (allowed : ∀ heard state, conduct.question heard request state state) :
    (ask request : Action S σ _).Obeys conduct fun heard answer _ => heard request answer :=
  fun heard state =>
    ⟨⟨state, .refl, allowed heard state⟩, fun _ _ _ _ told _ => ⟨.refl, told⟩⟩

end Action

end Precompiled
