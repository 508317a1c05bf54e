/-! What the success of a computation that may fail says about its steps. -/
namespace Precompiled.Outcome

variable {ε δ α β : Type} {outcome : Except ε α} {result : β}

/-- A sequence succeeds exactly if its steps do, one with the other's value. -/
theorem bind_ok {next : α → Except ε β} :
    (outcome >>= next) = .ok result ↔ ∃ value, outcome = .ok value ∧ next value = .ok result := by
  cases outcome with
  | error reason => simp [bind, Except.bind]
  | ok value => simp [bind, Except.bind]

theorem ok_bind (value : α) (next : α → Except ε β) :
    ((.ok value : Except ε α) >>= next) = next value :=
  rfl

theorem pure_ok {value : β} : (pure value : Except ε β) = .ok result ↔ value = result := by
  simp [pure, Except.pure]

/-- A test that may refuse is passed exactly if it does not, and then changes
nothing. -/
theorem guard_ok {condition : Prop} [Decidable condition] {reason : ε} {next : Unit → Except ε β} :
    (if condition then throw reason >>= next else next ()) = .ok result ↔
      ¬condition ∧ next () = .ok result := by
  by_cases refused : condition
  · simp [refused, bind, Except.bind, throw, throwThe, MonadExceptOf.throw]
  · simp [refused]

theorem mapError_ok {view : ε → δ} {value : α} :
    outcome.mapError view = .ok value ↔ outcome = .ok value := by
  cases outcome with
  | error reason => exact ⟨nofun, nofun⟩
  | ok result =>
    constructor
    · rintro ⟨⟩
      rfl
    · rintro ⟨⟩
      rfl

theorem map_ok {view : α → β} :
    outcome.map view = .ok result ↔ ∃ value, outcome = .ok value ∧ view value = result := by
  cases outcome with
  | error reason => simp [Except.map]
  | ok value => simp [Except.map]

theorem toOption_some {value : α} : outcome.toOption = some value ↔ outcome = .ok value := by
  cases outcome with
  | error reason => simp [Except.toOption]
  | ok value => simp [Except.toOption]

theorem map_bind {γ : Type} (outcome : Except ε α) (next : α → Except ε β) (view : β → γ) :
    (outcome >>= next).map view = outcome >>= fun value => (next value).map view := by
  cases outcome <;> rfl

theorem map_branch {γ : Type} {condition : Prop} [Decidable condition] (first second : Except ε β)
    (view : β → γ) : (if condition then first else second).map view =
      if condition then first.map view else second.map view :=
  apply_ite _ _ _ _

/-- A step for every item succeeds as a whole if each succeeds, and yields
their values in order. -/
theorem mapM_ok {items : List α} {step : α → Except ε β} {value : α → β}
    (each : ∀ item ∈ items, step item = .ok (value item)) :
    items.mapM step = .ok (items.map value) := by
  induction items with
  | nil => rfl
  | cons item rest ih =>
    rw [List.mapM_cons, each item (by simp), ih fun other member => each other (by simp [member])]
    rfl

/-- Every value that a traversal yields comes from some item. -/
theorem mem_of_mapM_ok {items : List α} {step : α → Except ε β} {results : List β}
    (whole : items.mapM step = .ok results) (member : result ∈ results) :
    ∃ item ∈ items, step item = .ok result := by
  induction items generalizing results with
  | nil =>
    obtain rfl : [] = results := pure_ok.mp whole
    cases member
  | cons item rest ih =>
    rw [List.mapM_cons] at whole
    obtain ⟨first, head, others⟩ := bind_ok.mp whole
    obtain ⟨tail, onward, built⟩ := bind_ok.mp others
    obtain rfl := pure_ok.mp built
    cases member with
    | head => exact ⟨item, by simp, head⟩
    | tail _ later =>
      obtain ⟨source, among, found⟩ := ih onward later
      exact ⟨source, by simp [among], found⟩

/-- Every item of a traversal yields one of its values. -/
theorem mapM_ok_mem {items : List α} {step : α → Except ε β} {results : List β} {item : α}
    (whole : items.mapM step = .ok results) (member : item ∈ items) :
    ∃ result ∈ results, step item = .ok result := by
  induction items generalizing results with
  | nil => cases member
  | cons first rest ih =>
    rw [List.mapM_cons] at whole
    obtain ⟨value, head, others⟩ := bind_ok.mp whole
    obtain ⟨tail, onward, built⟩ := bind_ok.mp others
    obtain rfl := pure_ok.mp built
    cases member with
    | head => exact ⟨value, by simp, head⟩
    | tail _ later =>
      obtain ⟨result, among, found⟩ := ih onward later
      exact ⟨result, by simp [among], found⟩

end Precompiled.Outcome
