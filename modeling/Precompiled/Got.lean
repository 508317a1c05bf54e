import Precompiled.Dialogue

/-! Tables of lazily resolved references. Compiled code never embeds a live
address; it reads a slot that starts out null. The first value stored in a slot
stays until the slot is cleared or the collector replaces it. Resolving and
updating hand control to a callback that may change the very table at hand, so
both look at the slot again once the callback has answered. -/
namespace Precompiled

/-- A table of slots, each null or holding a reference. -/
structure Got (α : Type) where
  slots : List (Option α)
  deriving DecidableEq, Repr, Inhabited

namespace Got

variable {α : Type}

/-- A table of `size` null slots. -/
def empty (size : Nat) : Got α :=
  ⟨List.replicate size none⟩

def size (table : Got α) : Nat :=
  table.slots.length

/-- The value of a slot; null and slots outside the table hold none. -/
def get (table : Got α) (index : Nat) : Option α :=
  table.slots[index]?.join

/-- Makes a slot hold `value`; slots outside the table are left alone. -/
def put (table : Got α) (index : Nat) (value : Option α) : Got α :=
  ⟨table.slots.set index value⟩

/-- Stores a value in a null slot. The result is what the slot then holds. -/
def setIfNull (index : Nat) (value : α) (table : Got α) : Option α × Got α :=
  match table.slots[index]? with
  | none => (none, table)
  | some (some current) => (some current, table)
  | some none => (some value, table.put index (some value))

/-- Makes a slot null. The result is what it held before. -/
def clear (index : Nat) (table : Got α) : Option α × Got α :=
  (table.get index, table.put index none)

/-- The slots that hold a value, with their values, in order. -/
def resolved (table : Got α) : List (Nat × α) :=
  table.slots.zipIdx.filterMap fun (slot, index) => slot.map fun value => (index, value)

/-- Where a list of moves takes a value; one that is not listed stays. -/
def moved [DecidableEq α] (moves : List (α × Option α)) (value : α) : Option α :=
  (moves.lookup value).getD (some value)

section Callbacks

variable {S : Signature} {σ : Type} (part : Part (Got α) σ)

/-- The value of a slot, resolved by `resolve` if it is null. The callback runs
at most once and only for a slot of the table. Its answer is kept only if the
slot is still null by then; otherwise the slot's own value is the answer. -/
def getOrResolve (index : Nat) (resolve : Action S σ (Option α)) : Action S σ (Option α) := do
  let table ← Action.read part.get
  match table.get index with
  | some value => return some value
  | none =>
    if table.size ≤ index then return none
    else
      match ← resolve with
      | none => return none
      | some value => Action.within part (Action.step (setIfNull index value))

variable [DecidableEq α]

/-- Replaces the value of a slot unless the slot meanwhile holds another. -/
def replaceIf (index : Nat) (seen : α) (value : Option α) (table : Got α) : Got α :=
  if table.get index = some seen then table.put index value else table

/-- Lets `visit` update one slot. The result is the visit that took place, if
the slot was not null. -/
def updateSlot (visit : Nat → α → Action S σ (Option α)) (index : Nat) :
    Action S σ (Option (Nat × α)) := do
  match (← Action.read part.get).get index with
  | none => return none
  | some seen =>
    let value ← visit index seen
    Action.within part (Action.update (replaceIf index seen value))
    return some (index, seen)

/-- Lets `visit` update the slots of a list one after the other. -/
def updateSlots (visit : Nat → α → Action S σ (Option α)) :
    List Nat → Action S σ (List (Nat × α))
  | [] => return []
  | index :: rest => do
    let first ← updateSlot part visit index
    let others ← updateSlots visit rest
    return first.toList ++ others

/-- Lets `visit` update every slot that holds a value when its turn comes; no
value clears the slot. A slot that somebody else changed during its visit keeps
the other value. The result lists the visits. -/
def updateEach (visit : Nat → α → Action S σ (Option α)) : Action S σ (List (Nat × α)) := do
  let table ← Action.read part.get
  updateSlots part visit (List.range table.size)

end Callbacks

end Got

end Precompiled
