import Precompiled.Proofs.Dialogue.Evaluation

/-! Runs of dialogues among others. Nothing is known of what happens while a question is
open: the answer may be any, and so may be the state that comes with it. -/
namespace Precompiled.Dialogue

variable {S : Signature} {σ α β : Type}

/-- The dialogue asks these questions in this order and comes to this end, if while each
of them is open the surroundings do to the state whatever they like. -/
inductive Runs : Dialogue S σ α → List S.Request → α → σ → Prop where
  | done (result : α) (state : σ) : Runs (.done result state) [] result state
  | ask {request : S.Request} {state last : σ} {result : α} {asked : List S.Request}
    {resume : S.Answer request → σ → Dialogue S σ α} (answer : S.Answer request) (after : σ)
    (onward : Runs (resume answer after) asked result last) :
    Runs (.ask request state resume) (request :: asked) result last

variable {dialogue : Dialogue S σ α} {next : α → σ → Dialogue S σ β} {asked : List S.Request}
  {last : σ}

@[simp] theorem runs_done {result value : α} {state : σ} :
    (done value state : Dialogue S σ α).Runs asked result last ↔
      asked = [] ∧ result = value ∧ last = state := by
  constructor
  · rintro ⟨⟩
    exact ⟨rfl, rfl, rfl⟩
  · rintro ⟨rfl, rfl, rfl⟩
    exact .done _ _

/-- The second half of a sequence is begun where the first one ends. -/
theorem runs_bind {result : β} : (dialogue.bind next).Runs asked result last ↔
    ∃ early value middle late, dialogue.Runs early value middle ∧
      (next value middle).Runs late result last ∧ asked = early ++ late := by
  constructor
  · intro runs
    induction dialogue generalizing asked with
    | done value state => exact ⟨[], value, state, asked, .done value state, runs, rfl⟩
    | ask request state resume ih =>
      cases runs with
      | ask answer after onward =>
        obtain ⟨early, value, middle, late, first, second, rfl⟩ := ih answer after onward
        exact ⟨request :: early, value, middle, late, .ask answer after first, second, rfl⟩
  · rintro ⟨early, value, middle, late, first, second, rfl⟩
    induction first with
    | done value state => exact second
    | ask answer after onward ih => exact .ask answer after (ih second)

end Precompiled.Dialogue
