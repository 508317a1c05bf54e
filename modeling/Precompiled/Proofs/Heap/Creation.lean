import Precompiled.Proofs.Heap.Growth

/-! What a heap looks like when it was just created. Creating it reports what it
does, but the outcome does not depend on the reports: the stubs are placed one
after the other, each in its own slot unless the slot is taken. -/
namespace Precompiled.Heap

open Relation (ReflTransGen)

variable {image : Image} {state : State} {library : Library}

/-- The code of a stub. -/
def stubCode (image : Image) (record : Blob.CodeRecord) : Except Error LinkedCode := do
  let name ← image.library.methodName record
  let detail ← image.library.detailOf record
  image.place record detail name none none none

/-- The state after a stub was put into its slot, if the slot was free. -/
def settle (image : Image) (state : State) (stub : LinkedCode) : State :=
  match state.slots[stub.codeId]? with
  | none => state
  | some slot =>
    if slot.handle = none then
      (State.admitCode image stub
        { state with slots := state.slots.set stub.codeId (slot.publishStub stub).2 }).2
    else state

/-- The state after the stubs of some records were put into their slots. -/
def settleAll (image : Image) (state : State) (records : List Blob.CodeRecord) :
    Except Error State :=
  records.foldlM (fun state record => (stubCode image record).map (settle image state)) state

/-- The stubs of records are put into their slots if each of them can be
placed. -/
theorem settleAll_total {records : List Blob.CodeRecord}
    (each : ∀ record ∈ records, ∃ stub, stubCode image record = .ok stub) (state : State) :
    ∃ after, settleAll image state records = .ok after := by
  induction records generalizing state with
  | nil => exact ⟨state, rfl⟩
  | cons record rest ih =>
    obtain ⟨stub, coded⟩ := each record (by simp)
    obtain ⟨after, settled⟩ := ih (fun other member => each other (by simp [member]))
      (settle image state stub)
    refine ⟨after, ?_⟩
    rw [settleAll, List.foldlM_cons, coded]
    exact settled

theorem registerStub_outcome (record : Blob.CodeRecord) (journal : Journal) :
    ((registerStub image state record).run journal).1 =
      (stubCode image record).map (settle image state) := by
  unfold registerStub settle
  have same : (do
      let name ← image.library.methodName record
      let detail ← image.library.detailOf record
      image.place record detail name none none none) = stubCode image record := rfl
  simp only [same]
  cases stubCode image record with
  | error error => rfl
  | ok stub =>
    simp only [Except.map]
    cases state.slots[stub.codeId]? with
    | none => rfl
    | some slot =>
      obtain ⟨phase, handle, admitted⟩ := slot
      cases handle <;> rfl

theorem registerStubs_outcome (records : List Blob.CodeRecord) (journal : Journal) :
    ((registerStubs image state records).run journal).1 = settleAll image state records := by
  induction records generalizing state journal with
  | nil => rfl
  | cons record rest ih =>
    have head : ((registerStub image state record).run journal).1 = _ :=
      registerStub_outcome record journal
    simp only [registerStubs, settleAll, List.foldlM_cons, StateT.run_bind, ← head]
    generalize (registerStub image state record).run journal = result
    obtain ⟨outcome, later⟩ := result
    cases outcome with
    | error error => rfl
    | ok settled => exact ih later

theorem create_outcome (journal : Journal) :
    ((Heap.create library).run journal).1 = (prepare library).bind fun (image, stubs) =>
      (settleAll image image.initialState stubs).map fun state => { image, state } := by
  unfold Heap.create
  cases prepare library with
  | error error => rfl
  | ok prepared =>
    obtain ⟨image, stubs⟩ := prepared
    have placed : ((registerStubs image image.initialState stubs).run journal).1 = _ :=
      registerStubs_outcome stubs journal
    simp only [StateT.run_bind, Except.bind, ← placed]
    generalize (registerStubs image image.initialState stubs).run journal = result
    obtain ⟨outcome, later⟩ := result
    cases outcome with
    | error error => rfl
    | ok state => rfl

end Precompiled.Heap
