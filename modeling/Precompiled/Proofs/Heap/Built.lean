import Precompiled.Proofs.Heap.Preparation
import Precompiled.Proofs.Library.RoundTrip

/-! Heaps of built blobs. Whatever edits describe, if they can be written and their
code can be entered, is loaded and gets a heap. -/
namespace Precompiled.Heap

open Blob Blob.Draft

variable {edits : List Edit} {settings : BuildSettings} {engineVersion : String}

/-- What was built of edits can be linked. -/
theorem summary_linkable (writable : Edits.Writable edits) (power : SegmentPower settings)
    (entered : ∀ added ∈ Edits.codes edits, Entered added.2)
    (fits : (Edits.summary settings engineVersion edits).Fits) :
    (Edits.summary settings engineVersion edits).Linkable where
  fits := fits
  short := writable.shortTexts
  power := power
  entered code member := by
    obtain ⟨added, among, rfl⟩ := List.mem_map.mp member
    exact entered added among
  listed owner member := by
    obtain ⟨classId, inside, rfl⟩ := List.mem_mapIdx.mp member
    exact List.idxOf_lt_length_of_mem (Edits.class_has_slot (List.getElem_mem inside))

theorem summary_stubs : ∀ codeId ∈ (Edits.summary settings engineVersion edits).stubs,
    codeId < (Edits.summary settings engineVersion edits).codes.length := by
  intro codeId member
  obtain ⟨⟨other, method⟩, owned, rfl⟩ := List.mem_map.mp member
  have inside := (List.getElem?_eq_some_iff.mp (Edits.mem_owned.mp owned)).1
  simpa [Edits.summary] using inside

/-- What was built of edits is loaded and gets a heap with its stubs. -/
theorem built_heap (writable : Edits.Writable edits) (power : SegmentPower settings)
    (entered : ∀ added ∈ Edits.codes edits, Entered added.2)
    (fits : (Edits.summary settings engineVersion edits).Fits)
    (name : String) (id : Nat) (options : LoadOptions) :
    ∃ (library : Library) (heap : Heap),
      (∀ journal, ((Library.load (Edits.summary settings engineVersion edits).assemble name id
        options).run journal).1 = .ok library) ∧
      (Edits.summary settings engineVersion edits).Loaded library ∧
      (∀ journal, ((Heap.create library).run journal).1 = .ok heap) ∧
      heap.image = (Edits.summary settings engineVersion edits).image library ∧
      ∀ codeId ∈ (Edits.summary settings engineVersion edits).stubs,
        ∃ code, heap.state.Holds codeId code := by
  have linkable := summary_linkable writable power entered fits
  have accepted := accept_assemble fits.addressable writable.classNames name id options
  have loaded := loaded_of_accepted fits.addressable accepted
  obtain ⟨heap, created, same, stubs⟩ := create_read loaded linkable summary_stubs
  exact ⟨_, heap, fun journal => (Edits.load_run _ _ _ _ journal).trans accepted, loaded, created,
    same, stubs⟩

/-- The library of any blob whose checksum is taken on trust, and its heap. -/
def linked? (blob : Bytes) : Option (Library × Heap) :=
  ((Library.load blob "lib" 0 { verifyChecksum := false }).run []).1.toOption.bind fun library =>
    ((Heap.create library).run []).1.toOption.map fun heap => (library, heap)

theorem linked_some {blob : Bytes} {library : Library} {heap : Heap}
    (linked : linked? blob = some (library, heap)) :
    ((Library.load blob "lib" 0 { verifyChecksum := false }).run []).1 = .ok library ∧
      ((Heap.create library).run []).1 = .ok heap := by
  unfold linked? at linked
  obtain ⟨loaded, accepted, linked⟩ := Option.bind_eq_some_iff.mp linked
  obtain ⟨created, made, same⟩ := Option.map_eq_some_iff.mp linked
  obtain ⟨rfl, rfl⟩ := Prod.mk.inj same
  exact ⟨Outcome.toOption_some.mp accepted, Outcome.toOption_some.mp made⟩

/-- The library of a built blob whose checksum is taken on trust, and its heap. -/
def built? (edits : List Edit) : Option (Library × Heap) :=
  ((Library.load (Draft.describe {} "1" edits).assemble "lib" 0
      { verifyChecksum := false }).run []).1.toOption.bind fun library =>
    ((Heap.create library).run []).1.toOption.map fun heap => (library, heap)

theorem built_some {library : Library} {heap : Heap} (built : built? edits = some (library, heap)) :
    ((Library.load (Draft.describe {} "1" edits).assemble "lib" 0
      { verifyChecksum := false }).run []).1 = .ok library ∧
      ((Heap.create library).run []).1 = .ok heap :=
  linked_some built

theorem sample_entered : ∀ added ∈ Edits.codes Edits.sample, Entered added.2 := by
  intro added member
  simp only [Edits.sample, Edits.codes, List.filterMap_cons, List.filterMap_nil, Edit.code?,
    List.mem_cons, List.not_mem_nil, or_false] at member
  rcases member with rfl | rfl <;> exact ⟨by decide, by decide⟩

end Precompiled.Heap
