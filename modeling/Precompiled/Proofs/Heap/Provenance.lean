import Precompiled.Proofs.Heap.Chronicle

/-! Where the code in slots comes from. As long as nobody publishes what another
heap linked, whatever a slot holds is a stub that was there from the beginning or
was linked here for a live class, however calls are nested. -/
namespace Precompiled.Heap

open Relation (ReflTransGen)

variable {heap : Heap} {image : Image} {before after state : State} {code : LinkedCode}
  {property : LinkedCode → Prop}

/-- All code that is held has the property. -/
def State.Every (property : LinkedCode → Prop) (state : State) : Prop :=
  ∀ codeId code, state.Holds codeId code → property code

namespace State.Every

theorem touches (every : before.Every property) (orderly : before.Orderly)
    (touches : before.Touches after) : after.Every property :=
  fun codeId code holds => every codeId code (touches.inherits orderly holds)

theorem install (every : before.Every property) (own : property code)
    (installed : Install image code before after) : after.Every property := by
  intro codeId taken holds
  rcases installed.inherits holds with ⟨-, rfl⟩ | holds
  · exact own
  · exact every codeId taken holds

/-- Before a question all code that is held has the property if all code that can be
installed has it. -/
theorem ask {source : LinkedCode → Prop} {request : Engine.Request} (every : before.Every property)
    (orderly : before.Orderly) (known : ∀ code, source code → property code)
    (asked : Ask image source request before after) : after.Every property := by
  rcases asked.touches with ⟨touches, -⟩ | ⟨code, -, own, installed⟩
  · exact every.touches orderly touches
  · exact every.install (known code own) installed

end State.Every

/-! ## Throughout a course -/

/-- Nobody publishes code that the heap does not hold. -/
def Native (course : (service image).Course) (task : Task) : Prop :=
  ∀ code, task = .call (.publish code) → course.state.state.Holds code.codeId code

/-- A task publishes only code with the property. -/
def Publishes (property : LinkedCode → Prop) (task : Task) : Prop :=
  ∀ code, task = .call (.publish code) → property code

theorem every_preserved
    (linked : ∀ entry holder code, Linked image entry holder code → property code) :
    (customs image State.Grows).Preserves (Publishes property) fun _ cell =>
      cell.state.Orderly ∧ cell.state.Every property where
  changed _ held change := by
    rcases change with same | change
    · rwa [same]
    · exact ⟨held.1.touches change.touches, held.2.touches held.1 change.touches⟩
  asked {task past question before after} permitted held asked := by
    refine ⟨held.1.ask asked, ?_⟩
    cases asked with
    | visitor shown => exact shown.same ▸ held.2
    | engine asked =>
      refine held.2.ask held.1 ?_ asked
      intro code known
      cases known with
      | given => exact permitted code rfl
      | linked own => exact linked _ _ code own
  called _ held := held
  answered _ held := held
  replied _ held _ := held
  drifted held drifted := by rwa [drifted]

/-- All code that is ever held has the property if the stubs have it and all code
that is linked has it. -/
theorem Reaches.every {course : (service heap.image).Course}
    (linked : ∀ entry holder code, Linked heap.image entry holder code → property code)
    (pristine : heap.state.Pristine) (initial : heap.state.Every property)
    (reached : Reaches heap Native course) : course.state.state.Every property := by
  obtain ⟨counters, journal, reached⟩ := reached
  have orderly : heap.state.Orderly := fun codeId slot found => (pristine codeId slot found).orderly
  have kept : (customs heap.image State.Grows).Kept (Publishes property) := customs_kept _
  have sound := reached.sound kept.toBorne (every_preserved linked).sustains
    (kept.begins fun course task held native code same => held.2 _ code (native code same))
    ⟨orderly, initial⟩
  exact sound.holding.2

/-! ## Holders -/

/-- Stubs are held by no live class. -/
def Unheld (code : LinkedCode) : Prop :=
  code.isStub = true → code.holder = none

theorem Linked.unheld {entry : ClassEntry} {holder : ClassRef}
    (linked : Linked image entry holder code) : Unheld code := by
  obtain ⟨records, record, detail, name, live, -, -, -, -, placed⟩ := linked.placed
  obtain ⟨offset, start, -, rfl⟩ := place_ok.mp placed
  intro isStub
  cases isStub

theorem stubCode_unheld {record : Blob.CodeRecord} (coded : stubCode image record = .ok code) :
    Unheld code := by
  obtain ⟨name, detail, -, placed⟩ := stubCode_placed coded
  obtain ⟨offset, start, -, rfl⟩ := place_ok.mp placed
  exact fun _ => rfl

/-- Putting stubs into slots brings nothing but stubs. -/
theorem Settles.every {records : List Blob.CodeRecord}
    (stubs : ∀ record ∈ records, ∀ code, stubCode image record = .ok code → property code)
    (settles : Settles image records before after) (every : before.Every property) :
    after.Every property := by
  induction settles with
  | refl => exact every
  | tail _ step ih =>
    obtain ⟨record, member, stub, coded, installed⟩ := step
    exact ih.install (stubs record member stub coded) installed

/-- Before anything happened nothing is held. -/
theorem initial_every : image.initialState.Every property := by
  rintro codeId code ⟨slot, found, held⟩
  obtain rfl : slot = {} := List.eq_of_mem_replicate (List.mem_of_getElem? found)
  cases held

/-- No stub is ever held by a live class. -/
theorem Reaches.unheld {library : Library} {journal : Journal}
    {course : (service heap.image).Course}
    (created : ((Heap.create library).run journal).1 = .ok heap)
    (reached : Reaches heap Native course) : course.state.state.Every Unheld := by
  obtain ⟨stubs, -, settled⟩ := create_ok.mp created
  obtain ⟨settles, pristine⟩ := settleAll_settles (fun _ member => member) initial_pristine settled
  exact reached.every (fun _ _ _ linked => linked.unheld) pristine
    (settles.every (fun _ _ _ coded => stubCode_unheld coded) initial_every)

end Precompiled.Heap
