import Precompiled.Got

/-! Tables of references under callbacks that change the table they are called
for. -/
namespace Precompiled.Rehearsal

/-- A table, and whether a callback ran. -/
structure WatchedTable (α : Type) where
  table : Got α
  called : Bool := false
  deriving DecidableEq, Repr

namespace WatchedTable

variable {α : Type}

/-- The table of a watched table. -/
def part : Part (Got α) (WatchedTable α) where
  get watched := watched.table
  set table watched := { watched with table }

end WatchedTable

variable {α : Type}

/-- Stores a value, if there is one, in a null slot. -/
def storeOptional (index : Nat) (value : Option α) (table : Got α) : Got α :=
  match value with
  | some value => (table.setIfNull index value).2
  | none => table

/-- Resolves a slot with a callback that first stores `earlier` in it and then
answers `value`. The result is what resolving answers and whether the callback
ran. -/
def resolveSlot (index : Nat) (value earlier : Option α) (table : Got α) :
    (Option α × Bool) × Got α :=
  let resolve : Action .silent (WatchedTable α) (Option α) :=
    Action.step fun watched =>
      (value, { table := storeOptional index earlier watched.table, called := true })
  let (result, after) := (Got.getOrResolve WatchedTable.part index resolve).run { table }
  ((result, after.called), after.table)

/-- Updates a table by moves. During the first visit one slot is cleared and
then given another value. The result lists the visits. -/
def updateTable [DecidableEq α] (moves : List (α × Option α))
    (disturbance : Option (Nat × Option α)) (table : Got α) : List (Nat × α) × Got α :=
  let disturb (table : Got α) : Got α :=
    match disturbance with
    | some (index, value) => storeOptional index value (table.clear index).2
    | none => table
  let visit (_ : Nat) (value : α) : Action .silent (WatchedTable α) (Option α) :=
    Action.step fun watched =>
      let table := if watched.called then watched.table else disturb watched.table
      (Got.moved moves value, { table, called := true })
  let (visits, after) := (Got.updateEach WatchedTable.part visit).run { table }
  (visits, after.table)

end Precompiled.Rehearsal
