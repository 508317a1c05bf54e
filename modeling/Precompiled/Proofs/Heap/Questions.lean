import Precompiled.Proofs.Heap.Answered

/-! What an operation asks of an engine that does not call back. The questions of a
sequence are those of its first part and then those of its second part, begun where the
first one ends; an operation that only looks and writes asks nothing. -/
namespace Precompiled

section Dialogues

variable {S : Signature} {σ α β : Type} {answers : (request : S.Request) → S.Answer request}
  {dialogue : Dialogue S σ α} {asked : List S.Request} {state after : σ}

/-- The questions of a dialogue that is answered from a table, in their order. -/
def Dialogue.questions (answers : (request : S.Request) → S.Answer request) :
    Dialogue S σ α → List S.Request
  | .done _ _ => []
  | .ask request state resume => request :: (resume (answers request) state).questions answers

theorem Dialogue.questions_bind (answers : (request : S.Request) → S.Answer request)
    (dialogue : Dialogue S σ α) (next : α → σ → Dialogue S σ β) :
    (dialogue.bind next).questions answers = dialogue.questions answers ++
      (next (dialogue.conclude answers).1 (dialogue.conclude answers).2).questions answers := by
  induction dialogue with
  | done result state => rfl
  | ask request state resume ih => exact congrArg (request :: ·) (ih _ _)

/-- The dialogue asks these questions in this order and comes to this end, if nobody
touches the state while a question is open. The answers are arbitrary; the same question
may be answered in one way now and in another one later. -/
inductive Dialogue.Concludes : Dialogue S σ α → List S.Request → α → σ → Prop where
  | done (result : α) (state : σ) : Concludes (.done result state) [] result state
  | ask {request : S.Request} {state after : σ} {result : α} {asked : List S.Request}
    {resume : S.Answer request → σ → Dialogue S σ α} (answer : S.Answer request)
    (onward : Concludes (resume answer state) asked result after) :
    Concludes (.ask request state resume) (request :: asked) result after

namespace Dialogue.Concludes

/-- A dialogue that is answered from a table is one that is answered. -/
theorem of_table (answers : (request : S.Request) → S.Answer request)
    (dialogue : Dialogue S σ α) : dialogue.Concludes (dialogue.questions answers)
      (dialogue.conclude answers).1 (dialogue.conclude answers).2 := by
  induction dialogue with
  | done result state => exact .done result state
  | ask request state resume ih => exact .ask (answers request) (ih (answers request) state)

/-- A sequence ends where its second half does, begun at the end of the first one. -/
theorem parts {next : α → σ → Dialogue S σ β} {result : β}
    (concludes : (dialogue.bind next).Concludes asked result after) :
    ∃ first value middle second, dialogue.Concludes first value middle ∧
      (next value middle).Concludes second result after ∧ asked = first ++ second := by
  induction dialogue generalizing asked with
  | done value state => exact ⟨[], value, state, asked, .done value state, concludes, rfl⟩
  | ask request state resume ih =>
    cases concludes with
    | ask answer onward =>
      obtain ⟨first, value, middle, second, early, late, rfl⟩ := ih answer state onward
      exact ⟨request :: first, value, middle, second, .ask answer early, late, rfl⟩

theorem bind_iff {next : α → σ → Dialogue S σ β} {result : β} :
    (dialogue.bind next).Concludes asked result after ↔
      ∃ first value middle second, dialogue.Concludes first value middle ∧
        (next value middle).Concludes second result after ∧ asked = first ++ second := by
  refine ⟨parts, ?_⟩
  rintro ⟨first, value, middle, second, early, late, rfl⟩
  induction early with
  | done => exact late
  | ask answer onward ih => exact .ask answer (ih late)

/-- If no question can be answered in two ways, every table says how the dialogue
ends. -/
theorem mute {result : α}
    (plain : ∀ request ∈ dialogue.questions answers, Subsingleton (S.Answer request))
    (concludes : dialogue.Concludes asked result after) :
    asked = dialogue.questions answers ∧ (result, after) = dialogue.conclude answers := by
  induction concludes with
  | done result state => exact ⟨rfl, rfl⟩
  | @ask request state after result asked resume answer onward ih =>
    have only := plain request List.mem_cons_self
    obtain rfl : answer = answers request := only.elim _ _
    obtain ⟨same, ended⟩ := ih fun other member => plain other (List.mem_cons_of_mem _ member)
    exact ⟨congrArg (request :: ·) same, ended⟩

/-- What the changes and the questions of a conduct spare, once all answers are known, a
dialogue that obeys it still has at its end, if nobody touches the state. -/
theorem obeyed {conduct : Conduct S σ} {post : S.Heard → α → σ → Prop} {heard : S.Heard}
    {result : α} (concludes : dialogue.Concludes asked result after) (kept : σ → Prop)
    (obeys : dialogue.Obeys conduct post heard state) (steady : ∀ state, conduct.rely state state)
    (told : ∀ request ∈ asked, ∀ answer, heard request answer)
    (changed : ∀ {before after}, kept before → conduct.change heard before after → kept after)
    (questioned : ∀ {request before after}, kept before →
      conduct.question heard request before after → kept after)
    (initial : kept state) : post heard result after ∧ kept after := by
  have changes : ∀ {before after}, kept before →
      Relation.ReflTransGen (conduct.change heard) before after → kept after := by
    intro before after held row
    induction row with
    | refl => exact held
    | tail _ change ih => exact changed ih change
  induction concludes generalizing state with
  | done result after => exact ⟨obeys.2, changes initial obeys.1⟩
  | @ask request middle after result asked resume answer onward ih =>
    obtain ⟨⟨last, row, leads⟩, resumed⟩ := obeys
    have there := questioned (changes initial row) leads
    refine ih (resumed heard answer middle le_rfl ?_ (steady middle)) ?_ there
    · exact told request List.mem_cons_self answer
    · exact fun other member => told other (List.mem_cons_of_mem _ member)

end Dialogue.Concludes

end Dialogues

namespace Heap.Operation

variable {α β : Type} {table : Engine.Table}

/-- What an operation asks while it is answered from a table. -/
def asked (table : Engine.Table) (operation : Operation α) (cell : Cell) :
    List Engine.Request :=
  (operation cell).questions table

@[simp] theorem asked_pure (value : α) (cell : Cell) :
    asked table (pure value) cell = [] := rfl

@[simp] theorem asked_bind (operation : Operation α) (next : α → Operation β) (cell : Cell) :
    asked table (operation >>= next) cell = asked table operation cell ++
      asked table (next (finish table operation cell).1) (finish table operation cell).2 :=
  Dialogue.questions_bind (S := Engine.signature) table (operation cell) fun value => next value

@[simp] theorem asked_read (view : Cell → α) (cell : Cell) :
    asked table (Action.read view) cell = [] := rfl

@[simp] theorem asked_step {σ : Type} (part : Part σ Cell) (change : σ → α × σ) (cell : Cell) :
    asked table (Action.within part (Action.step change)) cell = [] := rfl

@[simp] theorem asked_look (view : State → α) (cell : Cell) :
    asked table (look view) cell = [] := rfl

@[simp] theorem asked_change (step : State → α × State) (cell : Cell) :
    asked table (change step) cell = [] := rfl

@[simp] theorem asked_changeSlot (codeId : Nat) (step : Slot → α × Slot) (cell : Cell) :
    asked table (changeSlot codeId step) cell = [] := rfl

@[simp] theorem asked_alter (step : State → State) (cell : Cell) :
    asked table (alter step) cell = [] := rfl

@[simp] theorem asked_count (bump : Counters → Counters) (cell : Cell) :
    asked table (count bump) cell = [] := rfl

@[simp] theorem asked_note (level : Level) (topic : Topic) (text : String) (cell : Cell) :
    asked table (note level topic text) cell = [] := rfl

@[simp] theorem asked_ask (request : Engine.Request) (cell : Cell) :
    asked table (ask request) cell = [request] := rfl

end Heap.Operation

end Precompiled
