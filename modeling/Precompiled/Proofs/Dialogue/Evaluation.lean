import Precompiled.Dialogue

/-! What actions do step by step, for computing with those that ask nothing. -/
namespace Precompiled

variable {S T : Signature} {σ τ α β : Type}

namespace Dialogue

@[simp] theorem bind_done (result : α) (state : σ) (next : α → σ → Dialogue S σ β) :
    (Dialogue.done result state : Dialogue S σ α).bind next = next result state := rfl

@[simp] theorem bind_ask (request : S.Request) (state : σ)
    (resume : S.Answer request → σ → Dialogue S σ α) (next : α → σ → Dialogue S σ β) :
    (Dialogue.ask request state resume).bind next =
      .ask request state fun answer after => (resume answer after).bind next := rfl

/-- It does not matter how a sequence is grouped. -/
theorem bind_assoc {γ : Type} (dialogue : Dialogue S σ α) (next : α → σ → Dialogue S σ β)
    (last : β → σ → Dialogue S σ γ) :
    (dialogue.bind next).bind last =
      dialogue.bind fun result state => (next result state).bind last := by
  induction dialogue with
  | done result state => rfl
  | ask request state resume ih =>
    simp only [bind_ask]
    congr 1
    funext answer after
    exact ih answer after

/-- The questions of a sequence are answered in turn. -/
theorem answeredBy_bind {respond : (request : S.Request) → Action T σ (S.Answer request)}
    (dialogue : Dialogue S σ α) (next : α → σ → Dialogue S σ β) :
    (dialogue.bind next).answeredBy respond =
      (dialogue.answeredBy respond).bind fun value state => (next value state).answeredBy respond := by
  induction dialogue with
  | done value state => rfl
  | ask request state resume ih => simp only [answeredBy, bind_ask, bind_assoc, ih]

end Dialogue

namespace Action

@[simp] theorem pure_apply (value : α) (state : σ) :
    (pure value : Action S σ α) state = .done value state := rfl

theorem pure_bind (value : α) (next : α → Action S σ β) :
    (pure value : Action S σ α) >>= next = next value := rfl

@[simp] theorem bind_apply (first : Action S σ α) (next : α → Action S σ β) (state : σ) :
    (first >>= next) state = (first state).bind fun value after => next value after := rfl

@[simp] theorem map_apply (view : α → β) (action : Action S σ α) (state : σ) :
    (view <$> action) state = (action state).bind fun value after => .done (view value) after := rfl

@[simp] theorem read_apply (view : σ → α) (state : σ) :
    (read view : Action S σ α) state = .done (view state) state := rfl

@[simp] theorem update_apply (change : σ → σ) (state : σ) :
    (update change : Action S σ Unit) state = .done () (change state) := rfl

@[simp] theorem step_apply (change : σ → α × σ) (state : σ) :
    (step change : Action S σ α) state = .done (change state).1 (change state).2 := rfl

@[simp] theorem ask_apply (request : S.Request) (state : σ) :
    (ask request : Action S σ _) state = .ask request state .done := rfl

end Action

end Precompiled
