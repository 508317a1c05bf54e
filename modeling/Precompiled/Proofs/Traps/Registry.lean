import Precompiled.Heap.Registry
import Precompiled.Proofs.Extent
import Precompiled.Proofs.Traps.Action
import Precompiled.Proofs.Traps.Fixture

/-! Admitting and publishing code, and telling addresses apart. The tables of a heap keep
the sizes they were made with, and every handle in them lies where the code of the library
lies; that is what the sums and differences below rely on. The segment map is read as it
stands in the blob, whatever its bytes are. -/
namespace Precompiled

open Blob Trapping

namespace LinkedCode

/-- One past the last byte. -/
def stop? (code : LinkedCode) : Trapping Nat :=
  add code.start code.size

def contains? (code : LinkedCode) (address : Nat) : Trapping Bool := do
  let stop ← code.stop?
  return decide (code.start ≤ address) && decide (address < stop)

end LinkedCode

namespace Heap

/-- What is true of the tables of a heap at all times. -/
structure State.Intact (image : Image) (state : State) : Prop where
  slots : state.slots.length = image.slotCount
  loaders : state.loaders.length = image.classCount
  handles : ∀ slot ∈ state.slots, ∀ code, slot.handle = some code → image.Contains code
  extent : state.extent.Within image.library.codeSize

/-- The tables of the heap of a cell are intact. -/
abbrev Whole (image : Image) (cell : Cell) : Prop :=
  cell.state.Intact image

section Tables

variable {image : Image} {state : State} {codeId : Nat} {slot : Slot} {code : LinkedCode}

theorem State.Intact.handle (intact : state.Intact image) (found : state.slots[codeId]? = some slot)
    (held : slot.handle = some code) : image.Contains code :=
  intact.handles slot (List.mem_of_getElem? found) code held

theorem State.Intact.set (intact : state.Intact image)
    (own : ∀ code, slot.handle = some code → image.Contains code) :
    State.Intact image { state with slots := state.slots.set codeId slot } where
  slots := by rw [List.length_set, intact.slots]
  loaders := intact.loaders
  handles other among code held := by
    rcases List.mem_or_eq_of_mem_set among with before | rfl
    · exact intact.handles other before code held
    · exact own code held
  extent := intact.extent

/-- What leaves slots, loaders and the extent alone breaks nothing. -/
theorem State.Intact.of_same {after : State} (intact : state.Intact image)
    (slots : after.slots = state.slots) (loaders : after.loaders.length = state.loaders.length)
    (extent : after.extent = state.extent) : after.Intact image where
  slots := by rw [slots, intact.slots]
  loaders := by rw [loaders, intact.loaders]
  handles := slots ▸ intact.handles
  extent := extent ▸ intact.extent

end Tables

/-! ## Operations without partial expressions -/

section Operations

variable {image : Image} {α : Type}

theorem keeps_note (level : Level) (topic : Topic) (text : String) :
    (Operation.note level topic text).Keeps (Whole image) :=
  Action.keeps_update fun _ intact => intact

theorem keeps_count (bump : Counters → Counters) : (Operation.count bump).Keeps (Whole image) :=
  Action.keeps_update fun _ intact => intact

theorem keeps_ask (request : Engine.Request) : (Operation.ask request).Keeps (Whole image) :=
  fun _ intact => ⟨intact, fun _ _ holds => holds⟩

theorem keeps_look (view : State → α) : (Operation.look view).Keeps (Whole image) :=
  Action.keeps_read _

theorem keeps_alter {step : State → State}
    (preserves : ∀ state : State, state.Intact image → (step state).Intact image) :
    (Operation.alter step).Keeps (Whole image) :=
  Action.keeps_update fun cell intact => preserves cell.state intact

/-! The tables of references may hold anything. -/

theorem whole_metaspace (cell : Cell) (table : Got ClassRef) (intact : Whole image cell) :
    Whole image (Cell.metaspace.set table cell) :=
  State.Intact.of_same intact rfl rfl rfl

theorem whole_metadata (cell : Cell) (table : Got MetadataRef) (intact : Whole image cell) :
    Whole image (Cell.metadata.set table cell) :=
  State.Intact.of_same intact rfl rfl rfl

theorem whole_objects (cell : Cell) (table : Got ObjectRef) (intact : Whole image cell) :
    Whole image (Cell.objects.set table cell) :=
  State.Intact.of_same intact rfl rfl rfl

theorem keeps_metaspace (index : Nat) {resolve : Operation (Option ClassRef)}
    (keeps : resolve.Keeps (Whole image)) :
    (Got.getOrResolve Cell.metaspace index resolve).Keeps (Whole image) :=
  Action.keeps_getOrResolve whole_metaspace index keeps

theorem keeps_metadata (index : Nat) {resolve : Operation (Option MetadataRef)}
    (keeps : resolve.Keeps (Whole image)) :
    (Got.getOrResolve Cell.metadata index resolve).Keeps (Whole image) :=
  Action.keeps_getOrResolve whole_metadata index keeps

theorem keeps_objects (index : Nat) {resolve : Operation (Option ObjectRef)}
    (keeps : resolve.Keeps (Whole image)) :
    (Got.getOrResolve Cell.objects index resolve).Keeps (Whole image) :=
  Action.keeps_getOrResolve whole_objects index keeps

/-- Changing a slot breaks nothing if the slot keeps its handle or receives one that lies
inside the library. -/
theorem changeSlot_mirrors {step : Slot → α × Slot} {known : α → Prop} (codeId : Nat)
    (results : ∀ slot, known (step slot).1)
    (handles : ∀ slot code, (step slot).2.handle = some code →
      slot.handle = some code ∨ image.Contains code) :
    Guarded.Mirrors (Whole image)
      (fun value result => value = result ∧ ∀ found, value = some found → known found)
      (liftM (Operation.changeSlot codeId step)) (Operation.changeSlot codeId step) := by
  unfold Operation.changeSlot Operation.change
  refine Action.step_mirrors fun cell intact => ?_
  dsimp only
  cases found : cell.state.slots[codeId]? with
  | none => exact ⟨⟨rfl, by simp⟩, intact⟩
  | some slot =>
    refine ⟨⟨rfl, ?_⟩, ?_⟩
    · rintro _ ⟨⟩
      exact results slot
    · exact intact.set fun code held =>
        (handles slot code held).elim (intact.handle found) id

end Operations

/-! ## Admitting and publishing -/

namespace Fixture

section Definitions

variable (fixture : Fixture)

/-- Counts code of this library towards the bounds, once per slot. -/
def admitCode (code : LinkedCode) (state : State) : Trapping (Bool × State) :=
  if code.libraryId ≠ fixture.stored.id then return (false, state)
  else
    match state.slots[code.codeId]? with
    | none => return (false, state)
    | some slot =>
      if slot.admitted then return (false, state)
      else do
        let low ← sub code.start (← fixture.stored.base)
        let high ← sub (← code.stop?) (← fixture.stored.base)
        return (true, { state with
          slots := state.slots.set code.codeId slot.markAdmitted.2
          extent := state.extent.widen (UInt32.ofNat low) (UInt32.ofNat high) })

/-- Changes the heap by partial expressions. -/
def change {α : Type} (step : State → Trapping (α × State)) : Guarded Engine.signature Cell α :=
  Guarded.change fun cell =>
    (step cell.state).map fun (result, state) => (result, { cell with state })

def look {α : Type} (view : State → Trapping α) : Guarded Engine.signature Cell α :=
  Guarded.look fun cell => view cell.state

def admitLinked (code : LinkedCode) : Guarded Engine.signature Cell Bool :=
  change (fixture.admitCode code)

/-- Publishes code into its slot. -/
def publish (code : LinkedCode) : Guarded Engine.signature Cell Slot.Publication := do
  match ← Operation.changeSlot code.codeId (Slot.publish code) with
  | none =>
    Operation.note .warn .methods s!"publish of unknown code id {code.codeId}"
    return .invalidated
  | some (.published winner) =>
    let _ ← fixture.admitLinked winner
    Operation.count fun counters =>
      { counters with methodsPublished := counters.methodsPublished + 1 }
    let stop ← winner.stop?
    Operation.note .debug .methods (s!"published {winner.name.display} " ++
      s!"[0x{Text.hexNumber winner.start}, 0x{Text.hexNumber stop})")
    Operation.ask (.install winner)
    return .published winner
  | some other => return other

end Definitions

variable {fixture : Fixture} {code : LinkedCode} {state : State}

theorem Sound.stop_ok (sound : fixture.Sound) (contained : fixture.image.Contains code) :
    code.stop? = .ok code.stop := by
  have below := contained.below
  have placed := sound.placed
  unfold LinkedCode.stop at below
  exact add_ok (by omega)

theorem Sound.contains_ok (sound : fixture.Sound) (contained : fixture.image.Contains code)
    (address : Nat) : code.contains? address = .ok (code.contains address) := by
  rw [LinkedCode.contains?, sound.stop_ok contained]
  rfl

/-- Admitting code of the library does not trap. -/
theorem Sound.admitCode_ok (sound : fixture.Sound) (contained : fixture.image.Contains code)
    (state : State) :
    fixture.admitCode code state = .ok (state.admitCode fixture.image code) := by
  have above := contained.above
  have through : code.start ≤ code.stop := Nat.le_add_right _ _
  unfold Fixture.admitCode State.admitCode
  split
  · rename_i foreign
    rw [if_pos (by exact foreign)]
    rfl
  · rename_i own
    rw [if_neg (by exact own)]
    cases state.slots[code.codeId]? with
    | none => rfl
    | some slot =>
      dsimp only
      split
      · rfl
      · rw [sound.base_ok, Outcome.ok_bind, sub_ok above, Outcome.ok_bind, sound.stop_ok contained,
          Outcome.ok_bind, Outcome.ok_bind, sub_ok (Nat.le_trans above through)]
        rfl

theorem Sound.admitCode_intact (sound : fixture.Sound) (contained : fixture.image.Contains code)
    (intact : state.Intact fixture.image) :
    (state.admitCode fixture.image code).2.Intact fixture.image := by
  obtain ⟨above, below⟩ := contained
  have size := sound.codeSize
  have through : code.start ≤ code.stop := Nat.le_add_right _ _
  unfold State.admitCode
  split
  · exact intact
  · split
    · exact intact
    · rename_i slot found
      split
      · exact intact
      · have marked : State.Intact fixture.image
            { state with slots := state.slots.set code.codeId slot.markAdmitted.2 } :=
          intact.set fun code held => intact.handle found held
        refine ⟨marked.slots, marked.loaders, marked.handles, intact.extent.widen ?_ ?_⟩
        · rw [UInt32.toNat_ofNat', Nat.mod_eq_of_lt] <;> omega
        · rw [UInt32.toNat_ofNat', Nat.mod_eq_of_lt] <;> omega

theorem change_mirrors {image : Image} {α : Type} {step : State → Trapping (α × State)}
    {plain : State → α × State}
    (steps : ∀ state : State, state.Intact image →
      step state = .ok (plain state) ∧ (plain state).2.Intact image) :
    Guarded.Mirrors (Whole image) (· = ·) (change step) (Operation.change plain) := by
  refine Guarded.change_mirrors fun cell intact => ?_
  obtain ⟨done, kept⟩ := steps cell.state intact
  rw [done]
  exact ⟨rfl, kept⟩

theorem look_mirrors {image : Image} {α β : Type} {same : α → β → Prop}
    {view : State → Trapping α} {plain : State → β}
    (sees : ∀ state : State, state.Intact image →
      ∃ value, view state = .ok value ∧ same value (plain state)) :
    Guarded.Mirrors (Whole image) same (look view) (Operation.look plain) :=
  Guarded.look_mirrors fun cell intact => sees cell.state intact

theorem Sound.admit_mirrors (sound : fixture.Sound) (contained : fixture.image.Contains code) :
    Guarded.Mirrors (Whole fixture.image) (· = ·) (fixture.admitLinked code)
      (Heap.admitCode fixture.image code) :=
  change_mirrors fun state intact =>
    ⟨sound.admitCode_ok contained state, sound.admitCode_intact contained intact⟩

theorem publish_winner (slot : Slot) (winner : LinkedCode)
    (published : (slot.publish code).1 = .published winner) : winner = code := by
  unfold Slot.publish at published
  split at published <;> cases published
  rfl

theorem publish_handle {winner : LinkedCode} (slot : Slot)
    (held : (slot.publish code).2.handle = some winner) :
    slot.handle = some winner ∨ winner = code := by
  unfold Slot.publish at held
  split at held
  all_goals first | exact .inl held | exact .inr (Option.some.inj held).symm

/-- Publishing code of the library does not trap. -/
theorem Sound.publish_mirrors (sound : fixture.Sound) (contained : fixture.image.Contains code) :
    Guarded.Mirrors (Whole fixture.image) (· = ·) (fixture.publish code)
      (Heap.publish fixture.image code) := by
  have changed : Guarded.Mirrors (Whole fixture.image)
      (fun value result => value = result ∧ ∀ publication, value = some publication →
        ∀ winner, publication = .published winner → winner = code)
      (liftM (Operation.changeSlot code.codeId (Slot.publish code)))
      (Operation.changeSlot code.codeId (Slot.publish code)) :=
    changeSlot_mirrors code.codeId publish_winner fun slot winner held =>
      (publish_handle slot held).imp_right fun (same : winner = code) => same ▸ contained
  refine changed.bind fun value outcome same => ?_
  obtain ⟨rfl, known⟩ := same
  cases value with
  | none => exact (keeps_note _ _ _).lift.bind fun _ _ _ => Guarded.mirrors_pure rfl
  | some publication =>
    cases publication with
    | published winner =>
      obtain rfl := known _ rfl winner rfl
      refine (sound.admit_mirrors contained).bind fun _ _ _ => ?_
      refine (keeps_count _).lift.bind fun _ _ _ => ?_
      rw [Guarded.evaluate_bind (sound.stop_ok contained)]
      refine (keeps_note _ _ _).lift.bind fun _ _ _ => ?_
      exact (keeps_ask _).lift.bind fun _ _ _ => Guarded.mirrors_pure rfl
    | alreadyPublished winner => exact Guarded.mirrors_pure rfl
    | invalidated => exact Guarded.mirrors_pure rfl
    | waiting => exact Guarded.mirrors_pure rfl

end Fixture

end Heap

end Precompiled
