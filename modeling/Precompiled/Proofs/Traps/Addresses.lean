import Precompiled.Proofs.Traps.Registry

/-! Which code an address belongs to. The segment map comes from the blob as it is, so its
links may lead anywhere; following them ends all the same, since each link that is followed
leads further down. -/
namespace Precompiled.Heap

open Blob Trapping

/-- Follows the links of a segment map for a number of rounds. -/
def followLinks (map : Bytes) : Nat → Nat → Trapping (Option Nat)
  | 0, _ => .error .endless
  | rounds + 1, segment =>
    match map[segment]? with
    | none => .ok none
    | some link =>
      if link = freeSegment then .ok none
      else if link = 0 then .ok (some segment)
      else
        match sub? segment link.toNat with
        | none => .ok none
        | some before => followLinks map rounds before

theorem toNat_pos {link : UInt8} (some : ¬link = 0) : 0 < link.toNat :=
  Nat.pos_of_ne_zero fun zero => some (UInt8.toNat_inj.mp zero)

/-- Whatever the bytes of a map are, following its links from a segment ends within one
round for each segment up to there. -/
theorem followLinks_ends (map : Bytes) {rounds segment : Nat} (enough : segment < rounds) :
    followLinks map rounds segment = .ok (segmentStart map segment) := by
  induction rounds generalizing segment with
  | zero => exact absurd enough (Nat.not_lt_zero _)
  | succ rounds ih =>
    rw [followLinks, segmentStart]
    cases map[segment]? with
    | none => rfl
    | some link =>
      dsimp only
      by_cases free : link = freeSegment
      · rw [if_pos free, if_pos free]
      · rw [if_neg free, if_neg free]
        by_cases first : link = 0
        · rw [if_pos first, if_pos first]
        · have positive := toNat_pos first
          rw [if_neg first, if_neg first, sub?]
          by_cases below : segment < link.toNat
          · rw [if_pos below, if_neg (Nat.not_le.mpr below)]
          · rw [if_neg below, if_pos (Nat.le_of_not_lt below)]
            exact ih (by omega)

theorem segmentStart_le {map : Bytes} {segment first : Nat}
    (starts : segmentStart map segment = some first) : first ≤ segment := by
  induction segment using Nat.strongRecOn with
  | ind segment ih =>
    rw [segmentStart] at starts
    split at starts
    next => cases starts
    next link found =>
      split at starts
      next => cases starts
      next taken =>
        split at starts
        next start => exact Nat.le_of_eq (Option.some.inj starts).symm
        next more =>
          split at starts
          next => cases starts
          next inside =>
            have positive := toNat_pos more
            exact Nat.le_trans (ih _ (by omega) starts) (Nat.sub_le _ _)

namespace Fixture

section Definitions

variable (fixture : Fixture) (state : State)

/-- The code id in front of the code that an offset from the code base may belong to. -/
def codeIdOf? (offset : Nat) : Trapping (Option Nat) := do
  let map ← fixture.stored.segments
  let segment ← shiftRight offset fixture.shift
  match ← followLinks map (segment + 1) segment with
  | none => return none
  | some first =>
    match ← (fixture.stored.codeIdAt (← shiftLeft first fixture.shift)).run with
    | .error _ => return none
    | .ok codeId => return natural? codeId

/-- The admitted slot whose code covers an address, with that code. -/
def owningSlot (address : Nat) : Trapping (Option (Slot × LinkedCode)) := do
  match sub? address (← fixture.stored.base) with
  | none => return none
  | some offset =>
    if state.extent.contains offset then
      match ← fixture.codeIdOf? offset with
      | none => return none
      | some codeId =>
        match state.slots[codeId]? with
        | none => return none
        | some slot =>
          match slot.handle with
          | none => return none
          | some code =>
            if slot.admitted then
              if ← code.contains? address then return some (slot, code) else return none
            else return none
    else return none

def contains (address : Nat) : Trapping Bool := do
  return (← fixture.owningSlot state address).isSome

def findOwner (address : Nat) : Trapping (Option LinkedCode) := do
  return (← fixture.owningSlot state address).bind fun (slot, code) =>
    if slot.phase = .resolved then some code else none

def findStart (address : Nat) : Trapping (Option Nat) := do
  return (← fixture.owningSlot state address).map fun (_, code) => code.start

def lowBoundary : Trapping Nat := do
  add (← fixture.stored.base) ((state.extent.bounds?.map fun (low, _) => low.toNat).getD 0)

def highBoundary : Trapping Nat := do
  add (← fixture.stored.base) ((state.extent.bounds?.map fun (_, high) => high.toNat).getD 0)

/-- The first executable code after a code id. -/
def next (codeId : Nat) : Trapping (Option LinkedCode) := do
  return state.nextFrom (← add codeId 1)

end Definitions

namespace Sound

variable {fixture : Fixture} (sound : fixture.Sound)
include sound

theorem codeIdOf_ok {offset : Nat} (small : offset < 2 ^ 32) :
    fixture.codeIdOf? offset = .ok (fixture.image.codeIdOf? offset) := by
  have narrow := sound.narrow
  have map : fixture.stored.segments = .ok fixture.image.library.contents.segments :=
    sound.stored.segments_ok
  rw [Fixture.codeIdOf?, Image.codeIdOf?, map, Outcome.ok_bind, shiftRight_ok (by omega),
    Outcome.ok_bind, followLinks_ends _ (Nat.lt_succ_self _), Outcome.ok_bind, sound.segmentSize]
  cases starts : segmentStart fixture.image.library.contents.segments
      (offset / 2 ^ fixture.shift) with
  | none => rfl
  | some first =>
    have inside : first * 2 ^ fixture.shift ≤ offset :=
      Nat.le_trans (Nat.mul_le_mul_right _ (segmentStart_le starts)) (Nat.div_mul_le_self _ _)
    have read : fixture.stored.codeIdAt (first * 2 ^ fixture.shift) =
        .ok (fixture.image.library.codeIdAt (first * 2 ^ fixture.shift)) :=
      sound.stored.codeIdAt_ok _
    dsimp only
    rw [shiftLeft_ok (by omega) (by omega), Outcome.ok_bind, read]
    cases codeIdAt : fixture.image.library.codeIdAt (first * 2 ^ fixture.shift) with
    | error error => simp [ExceptT.run, Outcome.ok_bind, codeIdAt, Except.toOption, pure, Except.pure]
    | ok codeId => simp [ExceptT.run, Outcome.ok_bind, codeIdAt, Except.toOption, pure, Except.pure]

variable {state : State} (intact : state.Intact fixture.image)
include intact

/-- An offset within the extent lies within the code. -/
theorem inside {offset : Nat} (within : state.extent.contains offset = true) :
    offset < 2 ^ 32 := by
  unfold Extent.contains at within
  split at within
  next => cases within
  next low high bounds =>
    have size := sound.codeSize
    have limit := intact.extent low high bounds
    simp only [Bool.and_eq_true, decide_eq_true_eq] at within
    omega

theorem owningSlot_ok (address : Nat) :
    fixture.owningSlot state address = .ok (Heap.owningSlot ⟨fixture.image, state⟩ address) := by
  rw [Fixture.owningSlot, Heap.owningSlot, sound.base_ok, Outcome.ok_bind]
  by_cases below : address < fixture.image.library.codeBase
  · rw [sub?, if_neg (Nat.not_le.mpr below)]
    simp only [below, if_true]
    rfl
  rw [sub?, if_pos (Nat.le_of_not_lt below)]
  simp only [below, if_false]
  by_cases within : state.extent.contains (address - fixture.image.library.codeBase) = true
  · rw [if_pos within, if_pos within, sound.codeIdOf_ok (sound.inside intact within), Outcome.ok_bind]
    cases fixture.image.codeIdOf? (address - fixture.image.library.codeBase) with
    | none => rfl
    | some codeId =>
      cases found : state.slots[codeId]? with
      | none => simp only [found, Option.bind_eq_bind, Option.bind_some, Option.bind_none]; rfl
      | some slot =>
        cases held : slot.handle with
        | none => simp only [found, held, Option.bind_eq_bind, Option.bind_some, Option.bind_none]; rfl
        | some code =>
          simp only [found, held, Option.bind_eq_bind, Option.bind_some]
          cases slot.admitted with
          | false => rfl
          | true =>
            rw [if_pos rfl, sound.contains_ok (intact.handle found held), Outcome.ok_bind,
              Bool.true_and]
            cases code.contains address <;> rfl
  · rw [if_neg within, if_neg within]
    rfl

theorem contains_address_ok (address : Nat) :
    fixture.contains state address = .ok (Heap.contains ⟨fixture.image, state⟩ address) := by
  rw [Fixture.contains, sound.owningSlot_ok intact]
  rfl

theorem findOwner_ok (address : Nat) :
    fixture.findOwner state address = .ok (Heap.findOwner ⟨fixture.image, state⟩ address) := by
  rw [Fixture.findOwner, sound.owningSlot_ok intact]
  rfl

theorem findStart_ok (address : Nat) :
    fixture.findStart state address = .ok (Heap.findStart ⟨fixture.image, state⟩ address) := by
  rw [Fixture.findStart, sound.owningSlot_ok intact]
  rfl

theorem lowBoundary_ok :
    fixture.lowBoundary state = .ok (Heap.lowBoundary ⟨fixture.image, state⟩) := by
  have placed := sound.placed
  rw [Fixture.lowBoundary, sound.base_ok, Outcome.ok_bind]
  refine add_ok ?_
  cases bounds : state.extent.bounds? with
  | none =>
    simp only [Option.map_none, Option.getD_none]
    omega
  | some range =>
    have limit := intact.extent range.1 range.2 bounds
    simp only [Option.map_some, Option.getD_some]
    omega

theorem highBoundary_ok :
    fixture.highBoundary state = .ok (Heap.highBoundary ⟨fixture.image, state⟩) := by
  have placed := sound.placed
  rw [Fixture.highBoundary, sound.base_ok, Outcome.ok_bind]
  refine add_ok ?_
  cases bounds : state.extent.bounds? with
  | none =>
    simp only [Option.map_none, Option.getD_none]
    omega
  | some range =>
    have limit := intact.extent range.1 range.2 bounds
    simp only [Option.map_some, Option.getD_some]
    omega

omit sound intact in
theorem next_ok {codeId : Nat} (few : codeId < 2 ^ 32) (state : State) :
    Fixture.next state codeId = .ok (state.next codeId) := by
  rw [Fixture.next, add_ok (by omega)]
  rfl

end Sound

end Fixture

end Precompiled.Heap
