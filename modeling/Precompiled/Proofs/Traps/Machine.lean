import Mathlib.Algebra.Order.Ring.Nat

/-! Expressions that may have no value. On a machine with words of 64 bits a sum can be
too large and a difference too small, a shift can be too wide, and a range, an index or a
copy can miss the list it is about. Such an expression traps; nothing after it is
evaluated. A loop that is given a number of rounds traps when they are used up. -/
namespace Precompiled

/-- Why an expression has no value. -/
inductive Trap where
  /-- A number does not fit its word. -/
  | overflow
  /-- A range or an index lies outside a list. -/
  | outOfRange
  /-- A copy between lists of different lengths. -/
  | unequalLengths
  /-- A loop went on after its last round. -/
  | endless
  deriving DecidableEq, Repr

/-- What evaluating a partial expression comes to. -/
abbrev Trapping := Except Trap

namespace Trapping

variable {α β : Type}

/-! ## Words -/

def add (first second : Nat) : Trapping Nat :=
  if first + second < 2 ^ 64 then .ok (first + second) else .error .overflow

def sub (first second : Nat) : Trapping Nat :=
  if second ≤ first then .ok (first - second) else .error .overflow

def mul (first second : Nat) : Trapping Nat :=
  if first * second < 2 ^ 64 then .ok (first * second) else .error .overflow

/-- Bits that are shifted out are lost; only too wide a shift traps. -/
def shiftLeft (value shift : Nat) : Trapping Nat :=
  if shift < 64 then .ok (value * 2 ^ shift % 2 ^ 64) else .error .overflow

def shiftRight (value shift : Nat) : Trapping Nat :=
  if shift < 64 then .ok (value / 2 ^ shift) else .error .overflow

/-- The number below a signed 32-bit one. -/
def pred (value : Int32) : Trapping Int32 :=
  if Int32.minValue < value then .ok (value - 1) else .error .overflow

/-- A sum, if it fits. -/
def add? (first second : Nat) : Option Nat :=
  if first + second < 2 ^ 64 then some (first + second) else none

/-- A difference, if there is one. -/
def sub? (first second : Nat) : Option Nat :=
  if second ≤ first then some (first - second) else none

/-- A product, or the largest word. -/
def saturatingMul (first second : Nat) : Nat :=
  min (first * second) (2 ^ 64 - 1)

/-! ## Lists -/

/-- The items from `first` up to but without `last`. -/
def slice (items : List α) (first last : Nat) : Trapping (List α) :=
  if first ≤ last ∧ last ≤ items.length then .ok ((items.drop first).take (last - first))
  else .error .outOfRange

def get (items : List α) (index : Nat) : Trapping α :=
  match items[index]? with
  | some item => .ok item
  | none => .error .outOfRange

def put (items : List α) (index : Nat) (item : α) : Trapping (List α) :=
  if index < items.length then .ok (items.set index item) else .error .outOfRange

/-- A copy into a list of `length` items. -/
def copy (length : Nat) (items : List α) : Trapping (List α) :=
  if items.length = length then .ok items else .error .unequalLengths

/-! ## Where there is a value -/

variable {first second value shift length : Nat} {items : List α}

theorem add_ok (fits : first + second < 2 ^ 64) : add first second = .ok (first + second) :=
  if_pos fits

theorem sub_ok (above : second ≤ first) : sub first second = .ok (first - second) :=
  if_pos above

theorem mul_ok (fits : first * second < 2 ^ 64) : mul first second = .ok (first * second) :=
  if_pos fits

theorem shiftLeft_ok (narrow : shift < 64) (fits : value * 2 ^ shift < 2 ^ 64) :
    shiftLeft value shift = .ok (value * 2 ^ shift) := by
  rw [shiftLeft, if_pos narrow, Nat.mod_eq_of_lt fits]

theorem shiftRight_ok (narrow : shift < 64) :
    shiftRight value shift = .ok (value / 2 ^ shift) :=
  if_pos narrow

theorem add?_some (fits : first + second < 2 ^ 64) : add? first second = some (first + second) :=
  if_pos fits

theorem slice_ok (forwards : first ≤ second) (inside : second ≤ items.length) :
    slice items first second = .ok ((items.drop first).take (second - first)) :=
  if_pos ⟨forwards, inside⟩

theorem get_ok {index : Nat} {item : α} (found : items[index]? = some item) :
    get items index = .ok item := by
  rw [get, found]

theorem put_ok {index : Nat} (inside : index < items.length) (item : α) :
    put items index item = .ok (items.set index item) :=
  if_pos inside

theorem copy_ok (same : items.length = length) : copy length items = .ok items :=
  if_pos same

end Trapping

end Precompiled
