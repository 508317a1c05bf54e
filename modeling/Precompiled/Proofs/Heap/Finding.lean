import Precompiled.Proofs.Heap.Answered
import Precompiled.Proofs.Heap.Classification

/-! Finding code by address. A heap finds the code of its library as soon as it is
published, as the owner of its addresses as long as it is executable, and it finds no other
code. Code of another library may be published into a slot that is still free, but no
address leads to it. -/
namespace Precompiled.Heap

open Blob Blob.Draft

variable {draft : Draft} {heap : Heap} {image : Image} {state : State} {code winner : LinkedCode}
  {codeId address : Nat}

/-! ## Heaps of built blobs -/

/-- The library was loaded from a blob that was built of edits. -/
def Produced (library : Library) : Prop :=
  ∃ (settings : BuildSettings) (engineVersion : String) (edits : List Edit) (name : String)
    (id : Nat) (options : LoadOptions) (journal : Journal), Edits.Known edits ∧
      (Draft.describe settings engineVersion edits).Fits ∧
      ((Library.load (Draft.describe settings engineVersion edits).assemble name id options).run
        journal).1 = .ok library

/-- The heap of an assembled library has all code of the library in its place. -/
structure Surveyed (draft : Draft) (heap : Heap) : Prop where
  loaded : draft.Loaded heap.image.library
  fits : draft.Fits
  power : SegmentPower draft.settings
  orderly : heap.state.Orderly
  laid : Laid draft heap.image.library heap.state

theorem created_surveyed {journal : Journal} (produced : Produced heap.image.library)
    (created : ((Heap.create heap.image.library).run journal).1 = .ok heap) :
    ∃ draft, Surveyed draft heap := by
  obtain ⟨settings, engineVersion, edits, name, id, options, started, known, fits, accepted⟩ :=
    produced
  rw [Edits.describe_eq known] at fits accepted
  rw [Edits.load_run] at accepted
  have loaded := loaded_of_accepted fits.addressable accepted
  obtain ⟨stubs, prepared, -⟩ := create_ok.mp created
  have sized := prepare_segments prepared
  rw [loaded.settings] at sized
  exact ⟨_, loaded, fits, power_of_hasSegmentSize sized,
    fun codeId slot found => (created_pristine created codeId slot found).orderly,
    created_laid loaded fits created⟩

/-! ## Finding code -/

/-- A heap finds the code of its library and no other code. -/
structure Finds (heap : Heap) : Prop where
  /-- Code that was ever published is found at all its addresses. -/
  contains : ∀ codeId code, heap.state.Holds codeId code → Indigenous heap.image.library code →
    ∀ address, code.start ≤ address → address < code.stop → heap.contains address = true
  /-- As long as it is executable it is their owner. -/
  owner : ∀ codeId code, heap.state.executable? codeId = some code →
    Indigenous heap.image.library code →
      ∀ address, code.start ≤ address → address < code.stop → heap.findOwner address = some code
  indigenous : ∀ address code, heap.findOwner address = some code →
    Indigenous heap.image.library code

/-- Heaps whose slots own the same addresses give the same answers. -/
theorem owningSlot_congr {first second : Heap}
    (same : ∀ codeId slot code, Owns first address codeId slot code ↔
      Owns second address codeId slot code) :
    first.owningSlot address = second.owningSlot address := by
  refine Option.ext fun ⟨slot, code⟩ => ?_
  rw [owningSlot_some, owningSlot_some]
  exact exists_congr fun codeId => same codeId slot code

/-- Code of another library became the code of a slot of the heap. -/
structure Misplaced (heap : Heap) (winner : LinkedCode) (later : State) : Prop where
  foreign : ¬Indigenous heap.image.library winner
  executable : later.executable? winner.codeId = some winner
  /-- No address leads to the code, for all of them lead where they did before. -/
  contains : ∀ address, Heap.contains { heap with state := later } address = heap.contains address
  owner : ∀ address, Heap.findOwner { heap with state := later } address = heap.findOwner address

/-- Code that gets published is put into a free slot. -/
theorem publish_installs {answers : Engine.Table} {cell later : Cell}
    (published : (publish image code).finish answers cell = (.published winner, later)) :
    winner = code ∧ Install image code cell.state later.state := by
  rw [publish, Operation.finish_bind, Operation.finish_changeSlot] at published
  cases found : cell.state.slots[code.codeId]? with
  | none =>
    rw [found] at published
    cases congrArg Prod.fst published
  | some slot =>
    rw [found] at published
    obtain ⟨phase, handle, admitted⟩ := slot
    cases phase with
    | invalidated => cases congrArg Prod.fst published
    | resolved => cases handle <;> cases congrArg Prod.fst published
    | unresolved =>
      cases handle with
      | some other => cases congrArg Prod.fst published
      | none =>
        cases congrArg Prod.fst published
        have last : later.state = _ := congrArg Cell.state (congrArg Prod.snd published).symm
        rw [last]
        exact ⟨rfl, .slot found rfl rfl⟩

/-- Slots with code of the library are the same after other code was installed. -/
theorem Install.slot_iff {before after : State} {slot : Slot} {rest : Prop}
    (installed : Install image winner before after) (foreign : ¬Indigenous image.library winner) :
    (after.slots[codeId]? = some slot ∧ slot.handle = some code ∧ Indigenous image.library code ∧
        rest) ↔
      before.slots[codeId]? = some slot ∧ slot.handle = some code ∧ Indigenous image.library code ∧
        rest := by
  obtain ⟨old, found, free, rfl⟩ := install_foreign foreign installed
  constructor
  · rintro ⟨there, handle, own, rest⟩
    rcases set_slot there with ⟨-, rfl⟩ | ⟨-, elsewhere⟩
    · cases handle
      exact absurd own foreign
    · exact ⟨elsewhere, handle, own, rest⟩
  · rintro ⟨there, handle, own, rest⟩
    refine ⟨?_, handle, own, rest⟩
    have apart : winner.codeId ≠ codeId := by
      rintro rfl
      obtain rfl := Option.some.inj (found.symm.trans there)
      cases free.symm.trans handle
    rw [List.getElem?_set_ne apart, there]

namespace Surveyed

variable (surveyed : Surveyed draft heap)
include surveyed

theorem owns {slot : Slot} : Owns heap address codeId slot code ↔
    heap.state.slots[codeId]? = some slot ∧ slot.handle = some code ∧
      Indigenous heap.image.library code ∧ code.contains address = true :=
  owns_iff surveyed.loaded surveyed.fits surveyed.power surveyed.laid

theorem finds : Finds heap where
  contains codeId code holds own address above below := by
    obtain ⟨slot, found, handle⟩ := holds
    have covers : code.contains address = true := by simp [LinkedCode.contains, above, below]
    have owns := surveyed.owns.mpr ⟨found, handle, own, covers⟩
    exact Option.isSome_iff_exists.mpr ⟨_, owningSlot_some.mpr ⟨codeId, owns⟩⟩
  owner codeId code executable own address above below := by
    obtain ⟨slot, found, resolved, held⟩ := executable?_some.mp executable
    have covers : code.contains address = true := by simp [LinkedCode.contains, above, below]
    have owns := surveyed.owns.mpr ⟨found, held, own, covers⟩
    exact findOwner_some.mpr ⟨codeId, slot, owns, resolved⟩
  indigenous address code owner := by
    obtain ⟨codeId, slot, owns, -⟩ := findOwner_some.mp owner
    obtain ⟨-, -, own, -⟩ := surveyed.owns.mp owns
    exact own

/-- Without a question everything stays in its place. -/
theorem change {task : Task} {heard : surroundings.Heard}
    (backs : heap.state.Backs heap.image.library task)
    (change : Task.Change heap.image task heard heap.state state) :
    Surveyed draft { heap with state } :=
  { surveyed with
    orderly := surveyed.orderly.touches change.touches
    laid := surveyed.laid.change surveyed.orderly backs change }

/-- Before a question everything gets into its place. -/
theorem ask {task : Task} {question : Question}
    (backs : heap.state.Backs heap.image.library task)
    (asked : Task.Ask heap.image task question heap.state state) :
    Surveyed draft { heap with state } :=
  { surveyed with
    orderly := surveyed.orderly.ask asked
    laid := surveyed.laid.ask surveyed.loaded surveyed.fits backs asked }

/-- The heap refuses code of its library that it holds. If it publishes code, then it is
code of another library, and no address will lead to it. -/
theorem publish_misplaces {answers : Engine.Table} {cell later : Cell}
    (current : cell.state = heap.state)
    (held : Indigenous heap.image.library code → heap.state.Holds code.codeId code)
    (published : (publish heap.image code).finish answers cell = (.published winner, later)) :
    winner = code ∧ Misplaced heap winner later.state := by
  obtain ⟨rfl, installed⟩ := publish_installs published
  rw [current] at installed
  have foreign : ¬Indigenous heap.image.library winner := fun own =>
    installed.absent _ (held own)
  obtain ⟨-, slot, found, resolved, handle⟩ := installed.taken
  have after : Surveyed draft { heap with state := later.state } :=
    { surveyed with
      orderly := surveyed.orderly.install installed
      laid := surveyed.laid.install_foreign foreign installed }
  have owning : ∀ address, owningSlot { heap with state := later.state } address =
      heap.owningSlot address := fun address => owningSlot_congr fun codeId slot code => by
    rw [after.owns, surveyed.owns]
    exact installed.slot_iff foreign
  refine ⟨rfl, foreign, ?_, fun address => ?_, fun address => ?_⟩
  · exact executable?_some.mpr ⟨_, found, resolved, handle⟩
  · rw [Heap.contains, Heap.contains, owning]
  · rw [findOwner, findOwner, owning]

end Surveyed

end Precompiled.Heap
