import Precompiled.Proofs.Outcome
import Precompiled.Proofs.Traps.Machine

/-! Computations that may fail and may trap. A failure is a value like any other; what is
shown here is that a computation does not trap, together with the outcome it has: that of
a computation without partial expressions. -/
namespace Precompiled

variable {ε δ α β γ ω : Type}

/-- The computation has a value: it fails exactly as the other one does, and otherwise
their results are related. -/
inductive Evaluates (same : α → β → Prop) : ExceptT ε Trapping α → Except ε β → Prop where
  | error (error : ε) : Evaluates same (.ok (.error error)) (.error error)
  | ok {value : α} {other : β} (related : same value other) :
    Evaluates same (.ok (.ok value)) (.ok other)

/-- A partial expression that has a value is as good as the value. -/
theorem evaluate_bind {expression : Trapping α} {value : α} (has : expression = .ok value)
    (next : α → ExceptT ε Trapping β) :
    ((liftM expression : ExceptT ε Trapping α) >>= next) = next value := by
  rw [has]
  rfl

namespace Evaluates

variable {same : α → β → Prop} {related : γ → ω → Prop} {first : ExceptT ε Trapping α}
  {plain : Except ε β} {next : α → ExceptT ε Trapping γ} {other : β → Except ε ω}

theorem bind (evaluates : Evaluates same first plain)
    (onward : ∀ value result, plain = .ok result → same value result →
      Evaluates related (next value) (other result)) :
    Evaluates related (first >>= next) (plain >>= other) := by
  cases evaluates with
  | error error => exact .error error
  | ok known => exact onward _ _ rfl known

/-- More steps where the other computation takes a view of its result. -/
theorem bind_map {view : β → ω} (evaluates : Evaluates same first plain)
    (onward : ∀ value result, plain = .ok result → same value result →
      Evaluates related (next value) (Pure.pure (view result))) :
    Evaluates related (first >>= next) (plain.map view) := by
  cases evaluates with
  | error error => exact .error error
  | ok known => exact onward _ _ rfl known

/-- A view of the result that only the other computation takes. -/
theorem view {view : β → ω} {more : α → ω → Prop} (evaluates : Evaluates same first plain)
    (implies : ∀ value result, same value result → more value (view result)) :
    Evaluates more first (plain >>= fun result => Pure.pure (view result)) := by
  cases evaluates with
  | error error => exact .error error
  | ok known => exact .ok (implies _ _ known)

/-- A computation without partial expressions is its outcome. -/
theorem lift (outcome : Except ε α) :
    Evaluates (· = ·) (liftM outcome : ExceptT ε Trapping α) outcome := by
  cases outcome with
  | error error => exact .error error
  | ok value => exact .ok rfl

/-- A test that may refuse comes before both. -/
theorem guard {condition : Prop} [Decidable condition] {reason : ε}
    {later : PUnit → ExceptT ε Trapping γ} {rest : PUnit → Except ε ω}
    (onward : ¬condition → Evaluates related (later ⟨⟩) (rest ⟨⟩)) :
    Evaluates related (if condition then throw reason >>= later else later ⟨⟩)
      (if condition then throw reason >>= rest else rest ⟨⟩) := by
  by_cases refused : condition
  · rw [if_pos refused, if_pos refused]
    exact .error reason
  · rw [if_neg refused, if_neg refused]
    exact onward refused

/-- What has exactly the outcome of another computation is that outcome. -/
theorem eq {exact : ExceptT ε Trapping α} {outcome : Except ε α}
    (evaluates : Evaluates (· = ·) exact outcome) : exact = .ok outcome := by
  cases evaluates with
  | error error => rfl
  | ok known => rw [known]

theorem of_eq {exact : ExceptT ε Trapping α} {outcome : Except ε α} (same : exact = .ok outcome) :
    Evaluates (· = ·) exact outcome := by
  rw [same]
  exact lift outcome

/-- The computation fails or succeeds together with the other one. -/
theorem outcome (evaluates : Evaluates same first plain) :
    (∃ error, first.run = .ok (.error error) ∧ plain = .error error) ∨
      ∃ value result, first.run = .ok (.ok value) ∧ plain = .ok result ∧ same value result := by
  cases evaluates with
  | error error => exact .inl ⟨error, rfl, rfl⟩
  | ok known => exact .inr ⟨_, _, rfl, rfl, known⟩

/-- A traversal has the outcome of the other one. -/
theorem mapM {items : List α} {step : α → ExceptT ε Trapping β} {plain : α → Except ε β}
    (each : ∀ item ∈ items, Evaluates (· = ·) (step item) (plain item)) :
    Evaluates (· = ·) (items.mapM step) (items.mapM plain) := by
  induction items with
  | nil => exact .ok rfl
  | cons item rest ih =>
    rw [List.mapM_cons, List.mapM_cons]
    refine (each item List.mem_cons_self).bind fun value _ _ same => ?_
    subst same
    refine (ih fun other among => each other (List.mem_cons_of_mem _ among)).bind ?_
    rintro values _ - rfl
    exact .ok rfl

end Evaluates

end Precompiled
