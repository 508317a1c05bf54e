import Precompiled.Proofs.Heap.Creation
import Precompiled.Proofs.Heap.Place

/-! Slots in order. Phase and handle of a slot are written by many operations,
some of them in the middle of others. All of them keep the two in step: a slot
that holds a handle is not unresolved, and a resolved one holds a handle. -/
namespace Precompiled.Heap

open Relation (ReflTransGen)

variable {image : Image} {before after state : State} {code : LinkedCode}
  {codeId : Nat} {slot : Slot}

/-! ## Slots in order -/

/-- What is true of the slot of a code id at all times. -/
structure Orderly (codeId : Nat) (slot : Slot) : Prop where
  resolved : slot.phase = .resolved → ∃ code, slot.handle = some code
  handle : ∀ code, slot.handle = some code → slot.phase ≠ .unresolved ∧ code.codeId = codeId
  stub : ∀ code, slot.handle = some code → code.isStub → slot.phase = .resolved

/-- The slots of a state are in order. -/
def State.Orderly (state : State) : Prop :=
  ∀ (codeId : Nat) (slot : Slot), state.slots[codeId]? = some slot → Heap.Orderly codeId slot

/-- Executable code has the number of its slot. -/
theorem State.Orderly.executable_own (orderly : state.Orderly)
    (found : state.executable? codeId = some code) : code.codeId = codeId := by
  obtain ⟨slot, there, -, held⟩ := executable?_some.mp found
  exact ((orderly codeId slot there).handle code held).2

theorem Orderly.install (unresolved : slot.phase = .unresolved) (free : slot.handle = none) :
    Orderly code.codeId (slot.publish code).2 := by
  obtain ⟨phase, handle, admitted⟩ := slot
  cases (unresolved : phase = .unresolved)
  cases (free : handle = none)
  exact ⟨fun _ => ⟨code, rfl⟩, by rintro _ ⟨⟩; exact ⟨nofun, rfl⟩, fun _ _ _ => rfl⟩

theorem Orderly.retire (orderly : Orderly codeId slot) : Orderly codeId slot.retire.2 := by
  unfold Slot.retire
  split
  · rename_i unresolved
    have none : ∀ code, slot.handle = some code → False :=
      fun code held => (orderly.handle code held).1 unresolved
    exact ⟨nofun, fun code held => (none code held).elim, fun code held => (none code held).elim⟩
  · exact orderly

theorem Orderly.invalidate (orderly : Orderly codeId slot) : Orderly codeId slot.invalidate.2 := by
  obtain ⟨phase, handle, admitted⟩ := slot
  unfold Slot.invalidate
  split
  · exact orderly
  · rename_i method
    have never : ∀ code, handle = some code → code.isStub = true → False := by
      rintro code rfl isStub
      exact method isStub
    have invalidated : Orderly codeId ⟨.invalidated, handle, admitted⟩ :=
      ⟨nofun, fun code held => ⟨nofun, (orderly.handle code held).2⟩,
        fun code held isStub => (never code held isStub).elim⟩
    cases phase <;> exact invalidated

theorem Orderly.touch {later : Slot} (orderly : Orderly codeId slot) (touch : Touch slot later) :
    Orderly codeId later := by
  cases touch with
  | retire => exact orderly.retire
  | invalidate => exact orderly.invalidate
  | count => exact ⟨orderly.resolved, orderly.handle, orderly.stub⟩
  | stray code resolved free =>
    obtain ⟨code, held⟩ := orderly.resolved resolved
    simp [free] at held

namespace State.Orderly

theorem of_slots (orderly : before.Orderly) (same : after.slots = before.slots) :
    after.Orderly := fun codeId slot there => orderly codeId slot (same ▸ there)

theorem set (orderly : state.Orderly) (own : Heap.Orderly codeId slot) :
    State.Orderly { state with slots := state.slots.set codeId slot } := by
  intro other found there
  rcases set_slot there with ⟨rfl, rfl⟩ | ⟨-, elsewhere⟩
  · exact own
  · exact orderly other found elsewhere

theorem touches (orderly : before.Orderly) (touches : before.Touches after) : after.Orderly := by
  cases touches with
  | none same => exact orderly.of_slots same
  | one found touch changed =>
    exact (orderly.set ((orderly _ _ found).touch touch)).of_slots changed

theorem install (orderly : before.Orderly) (installed : Install image code before after) :
    after.Orderly := by
  cases installed with
  | slot found unresolved free =>
    exact (orderly.set (Orderly.install unresolved free)).touches (admitCode_touches image code _)

theorem ask {task : Task} {question : Question} (orderly : before.Orderly)
    (asked : Task.Ask image task question before after) : after.Orderly := by
  rcases asked.touches with ⟨touches, -⟩ | ⟨code, -, installed⟩
  · exact orderly.touches touches
  · exact orderly.install installed

end State.Orderly

/-! ## The first state -/

/-- A slot that holds nothing but perhaps a stub. -/
structure Pristine (codeId : Nat) (slot : Slot) : Prop where
  free : slot.handle = none → slot.phase = .unresolved
  stub : ∀ code, slot.handle = some code →
    slot.phase = .resolved ∧ code.isStub ∧ code.codeId = codeId

/-- No slot of the state holds anything but a stub. -/
def State.Pristine (state : State) : Prop :=
  ∀ (codeId : Nat) (slot : Slot), state.slots[codeId]? = some slot → Heap.Pristine codeId slot

theorem Pristine.orderly (pristine : Pristine codeId slot) : Orderly codeId slot where
  resolved resolved := by
    cases held : slot.handle with
    | none => simp [pristine.free held] at resolved
    | some code => exact ⟨code, rfl⟩
  handle code held := by
    obtain ⟨resolved, -, same⟩ := pristine.stub code held
    exact ⟨by simp [resolved], same⟩
  stub code held _ := (pristine.stub code held).1

theorem initial_pristine : image.initialState.Pristine := by
  intro codeId slot there
  obtain rfl : slot = {} := List.eq_of_mem_replicate (List.mem_of_getElem? there)
  exact ⟨fun _ => rfl, nofun⟩

/-- The stubs of some records are put into slots one after the other. -/
def Settles (image : Image) (records : List Blob.CodeRecord) : State → State → Prop :=
  ReflTransGen fun before after =>
    ∃ record ∈ records, ∃ stub, stubCode image record = .ok stub ∧ Install image stub before after

/-- The code of a stub was placed as its record and its detail say. -/
theorem stubCode_placed {record : Blob.CodeRecord} (coded : stubCode image record = .ok code) :
    ∃ name detail, image.library.detailOf record = .ok detail ∧
      image.place record detail name none none none = .ok code := by
  obtain ⟨name, -, coded⟩ := Outcome.bind_ok.mp coded
  obtain ⟨detail, detailed, placed⟩ := Outcome.bind_ok.mp coded
  exact ⟨name, detail, detailed, placed⟩

theorem stubCode_isStub {record : Blob.CodeRecord} (coded : stubCode image record = .ok code) :
    code.isStub = true := by
  obtain ⟨name, detail, -, placed⟩ := stubCode_placed coded
  obtain ⟨offset, start, -, rfl⟩ := place_ok.mp placed
  rfl

/-- A stub has the number of its record. -/
theorem stubCode_codeId {record : Blob.CodeRecord} (coded : stubCode image record = .ok code) :
    code.codeId = record.codeId.toUInt32.toNat := by
  obtain ⟨name, detail, -, placed⟩ := stubCode_placed coded
  obtain ⟨offset, start, -, rfl⟩ := place_ok.mp placed
  rfl

/-- All stubs could be placed if they were put into slots. -/
theorem settleAll_coded {records : List Blob.CodeRecord} {record : Blob.CodeRecord}
    (settled : settleAll image before records = .ok after) (member : record ∈ records) :
    ∃ stub, stubCode image record = .ok stub := by
  induction records generalizing before with
  | nil => cases member
  | cons first rest ih =>
    rw [settleAll, List.foldlM_cons] at settled
    obtain ⟨middle, placed, onward⟩ := Outcome.bind_ok.mp settled
    rcases List.mem_cons.mp member with rfl | later
    · obtain ⟨stub, coded, -⟩ := Outcome.map_ok.mp placed
      exact ⟨stub, coded⟩
    · exact ih onward later

theorem State.Pristine.install (pristine : before.Pristine) (isStub : code.isStub = true)
    (installed : Install image code before after) : after.Pristine := by
  cases installed with
  | slot found unresolved free =>
    rename_i own
    intro codeId slot there
    obtain ⟨old, placed, phase, handle⟩ := admitCode_slot there
    have settled : Heap.Pristine codeId old := by
      rcases set_slot placed with ⟨rfl, rfl⟩ | ⟨-, elsewhere⟩
      · obtain ⟨ownPhase, ownHandle, admitted⟩ := own
        cases (unresolved : ownPhase = .unresolved)
        cases (free : ownHandle = none)
        exact ⟨nofun, by rintro _ ⟨⟩; exact ⟨rfl, isStub, rfl⟩⟩
      · exact pristine codeId old elsewhere
    exact ⟨phase ▸ handle ▸ settled.free, phase ▸ handle ▸ settled.stub⟩

/-- A stub is installed into its slot or finds it taken. -/
theorem settle_installs (pristine : state.Pristine) (stub : LinkedCode) :
    settle image state stub = state ∨ Install image stub state (settle image state stub) := by
  unfold settle
  cases found : state.slots[stub.codeId]? with
  | none => exact .inl rfl
  | some slot =>
    by_cases free : slot.handle = none
    · have unresolved := (pristine _ _ found).free free
      have same : (slot.publishStub stub).2 = (slot.publish stub).2 := by
        obtain ⟨phase, handle, admitted⟩ := slot
        cases (free : handle = none)
        cases (unresolved : phase = .unresolved)
        rfl
      simp only [free, if_true, same]
      exact .inr (.slot found unresolved free)
    · simp only [free, if_false]
      exact .inl trivial

theorem settleAll_settles {records some : List Blob.CodeRecord}
    (among : ∀ record ∈ some, record ∈ records) (pristine : before.Pristine)
    (settled : settleAll image before some = .ok after) :
    Settles image records before after ∧ after.Pristine := by
  induction some generalizing before with
  | nil =>
    obtain rfl : before = after := Outcome.pure_ok.mp settled
    exact ⟨.refl, pristine⟩
  | cons record rest ih =>
    rw [settleAll, List.foldlM_cons] at settled
    obtain ⟨middle, first, onward⟩ := Outcome.bind_ok.mp settled
    obtain ⟨stub, coded, rfl⟩ := Outcome.map_ok.mp first
    have others : ∀ other ∈ rest, other ∈ records := fun other member => among other (by simp [member])
    rcases settle_installs pristine stub with same | installed
    · rw [same] at onward
      exact ih others pristine onward
    · have kept := pristine.install (stubCode_isStub coded) installed
      obtain ⟨settles, final⟩ := ih others kept onward
      exact ⟨.head ⟨record, among record (by simp), stub, coded, installed⟩ settles, final⟩

/-- Creating a heap succeeds exactly if its library can be prepared and its stubs
can be placed. -/
theorem create_ok {library : Library} {heap : Heap} {journal : Journal} :
    ((Heap.create library).run journal).1 = .ok heap ↔
      ∃ stubs, prepare library = .ok (heap.image, stubs) ∧
        settleAll heap.image heap.image.initialState stubs = .ok heap.state := by
  rw [create_outcome]
  constructor
  · intro created
    obtain ⟨⟨image, stubs⟩, prepared, created⟩ := Outcome.bind_ok.mp created
    obtain ⟨state, settled, rfl⟩ := Outcome.map_ok.mp created
    exact ⟨stubs, prepared, settled⟩
  · rintro ⟨stubs, prepared, settled⟩
    rw [prepared]
    exact Outcome.map_ok.mpr ⟨heap.state, settled, rfl⟩

/-- A heap begins with nothing but stubs. -/
theorem created_pristine {library : Library} {heap : Heap} {journal : Journal}
    (created : ((Heap.create library).run journal).1 = .ok heap) : heap.state.Pristine := by
  obtain ⟨stubs, -, settled⟩ := create_ok.mp created
  exact (settleAll_settles (fun _ member => member) initial_pristine settled).2

end Precompiled.Heap
