import Precompiled.Heap.Call
import Precompiled.Proofs.Dialogue.Course
import Precompiled.Proofs.Dialogue.Evaluation

/-! An engine whose answers stand in a table. It answers the same request in the
same way every time and never calls back, so an operation comes to its end without
interruption, and what it does is a relation between its first state, its result
and its last state. -/
namespace Precompiled

/-- What an engine answers to each request. -/
abbrev Engine.Table : Type :=
  (request : Engine.Request) → request.Answer

namespace Heap

variable {α β : Type} {table : Engine.Table} {operation : Operation α} {next : α → Operation β}

/-- The result of an operation that is answered from a table, and the cell it
leaves. -/
def Operation.finish (table : Engine.Table) (operation : Operation α) (cell : Cell) : α × Cell :=
  (operation cell).conclude table

namespace Operation

@[simp] theorem finish_pure (value : α) (cell : Cell) :
    finish table (pure value) cell = (value, cell) := rfl

@[simp] theorem finish_bind (operation : Operation α) (next : α → Operation β) (cell : Cell) :
    finish table (operation >>= next) cell =
      finish table (next (finish table operation cell).1) (finish table operation cell).2 :=
  Dialogue.conclude_bind (S := Engine.signature) table (operation cell) fun value => next value

@[simp] theorem finish_read (view : Cell → α) (cell : Cell) :
    finish table (Action.read view) cell = (view cell, cell) := rfl

@[simp] theorem finish_step {σ : Type} (part : Part σ Cell) (change : σ → α × σ) (cell : Cell) :
    finish table (Action.within part (Action.step change)) cell =
      ((change (part.get cell)).1, part.set (change (part.get cell)).2 cell) := rfl

@[simp] theorem finish_look (view : State → α) (cell : Cell) :
    finish table (look view) cell = (view cell.state, cell) := rfl

@[simp] theorem finish_change (step : State → α × State) (cell : Cell) :
    finish table (change step) cell =
      ((step cell.state).1, { cell with state := (step cell.state).2 }) := rfl

@[simp] theorem finish_alter (step : State → State) (cell : Cell) :
    finish table (alter step) cell = ((), { cell with state := step cell.state }) := rfl

@[simp] theorem finish_count (bump : Counters → Counters) (cell : Cell) :
    finish table (count bump) cell = ((), { cell with counters := bump cell.counters }) := rfl

@[simp] theorem finish_note (level : Level) (topic : Topic) (text : String) (cell : Cell) :
    finish table (note level topic text) cell =
      ((), { cell with journal := cell.journal ++ [⟨level, topic, text⟩] }) := rfl

/-- A slot outside the table is left alone. -/
theorem finish_changeSlot (codeId : Nat) (step : Slot → α × Slot) (cell : Cell) :
    finish table (changeSlot codeId step) cell = match cell.state.slots[codeId]? with
      | none => (none, cell)
      | some slot => (some (step slot).1,
          { cell with state :=
            { cell.state with slots := cell.state.slots.set codeId (step slot).2 } }) := by
  rw [changeSlot, finish_change]
  cases cell.state.slots[codeId]? <;> rfl

@[simp] theorem finish_ask (request : Engine.Request) (cell : Cell) :
    finish table (ask request) cell = (table request, cell) := rfl

end Operation

/-- Answered from a table, the operation relates its first state to its result and its
last state. -/
def Yields (table : Engine.Table) (operation : Operation α)
    (relation : State → α → State → Prop) : Prop :=
  ∀ cell, relation cell.state (operation.finish table cell).1
    (operation.finish table cell).2.state

theorem Yields.weaken {relation other : State → α → State → Prop}
    (yields : Yields table operation relation)
    (implies : ∀ before result after, relation before result after → other before result after) :
    Yields table operation other :=
  fun cell => implies _ _ _ (yields cell)

end Heap

end Precompiled
