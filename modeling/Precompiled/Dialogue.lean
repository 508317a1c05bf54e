/-! Computations that stop to ask their surroundings something. While such a
question is open the surroundings may do as they please, including starting
computations over the same state, so a question hands the state out and its
answer brings a state back in. What happens between two questions happens
without interruption. -/
namespace Precompiled

/-- The questions a computation may ask and the kind of answer to each. -/
structure Signature where
  Request : Type
  Answer : Request → Type

/-- No questions at all. -/
def Signature.silent : Signature where
  Request := Empty
  Answer := Empty.elim

/-- A computation over a state `σ` in the course of its run: finished, or
waiting for an answer. -/
inductive Dialogue (S : Signature) (σ α : Type) : Type where
  | done (result : α) (state : σ)
  | ask (request : S.Request) (state : σ)
      (resume : S.Answer request → σ → Dialogue S σ α)

namespace Dialogue

variable {S T : Signature} {σ τ α β : Type}

/-- Goes on with `next` once the dialogue is finished. -/
def bind : Dialogue S σ α → (α → σ → Dialogue S σ β) → Dialogue S σ β
  | .done result state, next => next result state
  | .ask request state resume, next =>
    .ask request state fun answer after => (resume answer after).bind next

/-- The outcome of a dialogue without questions. -/
def outcome : Dialogue .silent σ α → α × σ
  | .done result state => (result, state)
  | .ask request _ _ => nomatch request

end Dialogue

/-- A computation that starts from a state `σ` and may ask the questions of
`S`. -/
def Action (S : Signature) (σ α : Type) : Type :=
  σ → Dialogue S σ α

/-- A component of a larger state. -/
structure Part (σ τ : Type) where
  get : τ → σ
  set : σ → τ → τ

/-! ## Dialogues inside larger states, and dialogues with their answers -/

namespace Dialogue

variable {S T : Signature} {σ τ α : Type}

/-- Runs the dialogue of a component inside the larger state. Whatever the
surroundings do to the component while a question is open is seen when the
answer comes. -/
def within (part : Part σ τ) :
    Dialogue S σ α → τ → Dialogue S τ α
  | .done result state, whole => .done result (part.set state whole)
  | .ask request state resume, whole =>
    .ask request (part.set state whole) fun answer after =>
      (resume answer (part.get after)).within part after

/-- Answers every question by an action over the same state. -/
def answeredBy
    (respond : (request : S.Request) → Action T σ (S.Answer request)) :
    Dialogue S σ α → Dialogue T σ α
  | .done result state => .done result state
  | .ask request state resume =>
    (respond request state).bind fun answer after => (resume answer after).answeredBy respond

end Dialogue

namespace Action

variable {S T : Signature} {σ τ α β : Type}

instance : Monad (Action S σ) where
  pure result := fun state => .done result state
  bind first next := fun state => (first state).bind next

/-- Looks at the state. -/
def read (view : σ → α) : Action S σ α :=
  fun state => .done (view state) state

/-- Changes the state. -/
def update (change : σ → σ) : Action S σ Unit :=
  fun state => .done () (change state)

/-- Changes the state and yields a result in one step. -/
def step (change : σ → α × σ) : Action S σ α := fun state =>
  let (result, after) := change state
  .done result after

/-- Asks a question. -/
def ask (request : S.Request) : Action S σ (S.Answer request) :=
  fun state => .ask request state .done

/-- Runs an action of a component inside the larger state. -/
def within (part : Part σ τ) (action : Action S σ α) : Action S τ α :=
  fun whole => (action (part.get whole)).within part whole

/-- Answers every question of an action by an action over the same state. -/
def answeredBy (respond : (request : S.Request) → Action T σ (S.Answer request))
    (action : Action S σ α) : Action T σ α :=
  fun state => (action state).answeredBy respond

/-- The outcome of an action without questions. -/
def run (action : Action .silent σ α) (state : σ) : α × σ :=
  (action state).outcome

end Action

end Precompiled
