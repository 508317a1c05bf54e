import Precompiled.Proofs.Dialogue.Course
import Precompiled.Proofs.Dialogue.Evaluation
import Precompiled.Got

/-! Dialogues that change part of a state only in answer to questions. Between two
questions that part stays as it is. What an answer will do to it is settled when the
question is asked, whatever happens to the state in between. -/
namespace Precompiled

/-- The table after an answer for one of its slots came in. It is kept if the slot is
still null by then. -/
def Got.receive {α : Type} (table : Got α) (index : Nat) : Option α → Got α
  | none => table
  | some value => (setIfNull index value table).2

/-- How questions bear on what is seen of a state. -/
structure Discipline (S : Signature) (V : Type) where
  /-- The question may be asked while this is seen, and its answer has this effect on
  what is seen by then. -/
  effect : (request : S.Request) → V → (S.Answer request → V → V) → Prop
  /-- What may become of what is seen while a question is open. -/
  rely : V → V → Prop

variable {S : Signature} {σ α β V : Type} {discipline : Discipline S V} {view : σ → V}
  {kept : V → Prop}

/-- The property survives whatever the discipline allows. -/
structure Discipline.Keeps (discipline : Discipline S V) (kept : V → Prop) : Prop where
  relied : ∀ {seen now}, kept seen → discipline.rely seen now → kept now
  effected : ∀ {request seen effect answer now}, discipline.effect request seen effect →
    kept now → kept (effect answer now)

/-- The property that always holds. -/
theorem Discipline.keeps_true : discipline.Keeps fun _ => True :=
  ⟨fun _ _ => trivial, fun _ _ => trivial⟩

namespace Dialogue

/-- The dialogue, begun while `seen` is seen of the state, changes that only by
answers. -/
def Heeds (discipline : Discipline S V) (view : σ → V) : V → Dialogue S σ α → Prop
  | seen, .done _ state => view state = seen
  | seen, .ask request state resume => view state = seen ∧
    ∃ effect, discipline.effect request seen effect ∧
      ∀ answer after, discipline.rely seen (view after) →
        (resume answer after).Heeds discipline view (effect answer (view after))

variable {seen : V} {dialogue : Dialogue S σ α}

/-- A dialogue that heeds the discipline comes to a halt without a change. -/
theorem Heeds.present (heeds : dialogue.Heeds discipline view seen) :
    view dialogue.present = seen := by
  cases dialogue with
  | done result state => exact heeds
  | ask request state resume => exact heeds.1

/-- A sequence heeds the discipline if its second half does wherever the first one can
end. -/
theorem Heeds.bind {next : α → σ → Dialogue S σ β} (keeps : discipline.Keeps kept)
    (first : dialogue.Heeds discipline view seen) (initial : kept seen)
    (second : ∀ value state, kept (view state) →
      (next value state).Heeds discipline view (view state)) :
    (dialogue.bind next).Heeds discipline view seen := by
  induction dialogue generalizing seen with
  | done value state =>
    obtain rfl : view state = seen := first
    exact second value state initial
  | ask request state resume ih =>
    obtain ⟨same, effect, allowed, resumed⟩ := first
    refine ⟨same, effect, allowed, fun answer after onward => ?_⟩
    have later := keeps.relied initial onward
    exact ih answer after (resumed answer after onward) (keeps.effected allowed later)

end Dialogue

namespace Action

/-- Begun where the property holds of what is seen, the action changes that only by
answers. -/
def Heeds (discipline : Discipline S V) (view : σ → V) (kept : V → Prop)
    (action : Action S σ α) : Prop :=
  ∀ state, kept (view state) → (action state).Heeds discipline view (view state)

variable {action : Action S σ α} {next : α → Action S σ β}

theorem heeds_pure (value : α) : (pure value : Action S σ α).Heeds discipline view kept :=
  fun _ _ => rfl

theorem Heeds.bind (keeps : discipline.Keeps kept) (first : action.Heeds discipline view kept)
    (second : ∀ value, (next value).Heeds discipline view kept) :
    (action >>= next).Heeds discipline view kept :=
  fun state initial => (first state initial).bind keeps initial second

/-- What is done at once, without a change of what is seen, needs no discipline. -/
theorem heeds_silent (silent : ∀ state, ∃ value after, action state = .done value after ∧
    view after = view state) : action.Heeds discipline view kept := by
  intro state _
  obtain ⟨value, after, ran, same⟩ := silent state
  rw [ran]
  exact same

theorem heeds_read (look : σ → α) : (read look : Action S σ α).Heeds discipline view kept :=
  fun _ _ => rfl

theorem heeds_update {step : σ → σ} (same : ∀ state, view (step state) = view state) :
    (update step : Action S σ Unit).Heeds discipline view kept :=
  heeds_silent fun state => ⟨_, _, rfl, same state⟩

/-- A question whose answer changes nothing. -/
theorem heeds_ask {request : S.Request}
    (plain : ∀ seen, kept seen → discipline.effect request seen fun _ now => now) :
    (ask request : Action S σ _).Heeds discipline view kept :=
  fun state initial => ⟨rfl, _, plain (view state) initial, fun _ _ _ => rfl⟩

/-- Resolving a slot heeds a discipline that knows what an answer does to the slot. -/
theorem heeds_getOrResolve {part : Part (Got α) σ} {index : Nat} {request : S.Request}
    {resolve : Action S σ (Option α)} {decode : S.Answer request → Option α}
    (asks : ∀ state, resolve state = .ask request state fun answer after =>
      .done (decode answer) after)
    (whole : ∀ state, part.set (part.get state) state = state)
    (allowed : ∀ state, kept (view state) → (part.get state).slots[index]? = some none →
      ∃ effect, discipline.effect request (view state) effect ∧ ∀ answer after,
        view (part.set ((part.get after).receive index (decode answer)) after) =
          effect answer (view after)) :
    (Got.getOrResolve part index resolve).Heeds discipline view kept := by
  intro state initial
  simp only [Got.getOrResolve, bind_apply, read_apply, Dialogue.bind_done]
  cases held : (part.get state).get index with
  | some value => exact rfl
  | none =>
    dsimp only
    split
    · exact rfl
    · rename_i inside
      have null : (part.get state).slots[index]? = some none := by
        have bound : index < (part.get state).slots.length := Nat.lt_of_not_le inside
        simpa [Got.get, List.getElem?_eq_getElem bound] using held
      obtain ⟨effect, permitted, received⟩ := allowed state initial null
      simp only [bind_apply, asks, Dialogue.bind_ask, Dialogue.bind_done]
      refine ⟨rfl, effect, permitted, fun answer after _ => ?_⟩
      have outcome := received answer after
      dsimp only
      cases told : decode answer with
      | none =>
        rw [told, Got.receive, whole] at outcome
        exact outcome
      | some value =>
        rw [told, Got.receive] at outcome
        exact outcome

end Action

end Precompiled
