import Precompiled.Proofs.Heap.Address
import Precompiled.Proofs.Heap.Admission
import Precompiled.Proofs.Heap.Built

/-! Addresses and code. Looking an address up through bounds and segment map gives
the answers of a search through all code that was ever published, in every state
that a heap of an assembled library comes to. -/
namespace Precompiled.Heap

open Blob Blob.Draft

/-- The address lies in the code that was assembled under the id. -/
def Inside (draft : Draft) (base codeId address : Nat) : Prop :=
  ∃ source, draft.codes[codeId]? = some source ∧
    base + startOf draft.codeChunks codeId ≤ address ∧
    address < base + startOf draft.codeChunks codeId + span source

/-- The code of the id is a stub, or it was executable at some time. -/
def Published (draft : Draft) (heap : Heap) (course : (service heap.image).Course) (codeId : Nat) :
    Prop :=
  codeId ∈ draft.stubs ∨ ∃ state ∈ history heap course, state.phase? codeId = some .resolved

/-- What a search through all published code says about addresses, and the heap
says too. -/
structure Classifies (draft : Draft) (published : Nat → Prop) (heap : Heap) : Prop where
  contains : ∀ address, heap.contains address = true ↔
    ∃ codeId, published codeId ∧ Inside draft heap.image.library.codeBase codeId address
  /-- No address lies in two pieces of code. -/
  unique : ∀ address first second, Inside draft heap.image.library.codeBase first address →
    Inside draft heap.image.library.codeBase second address → first = second
  start : ∀ address codeId, published codeId →
    Inside draft heap.image.library.codeBase codeId address →
      heap.findStart address =
        some (heap.image.library.codeBase + startOf draft.codeChunks codeId)
  /-- Only executable code has its handle found. -/
  owner : ∀ address codeId, published codeId →
    Inside draft heap.image.library.codeBase codeId address →
      ∃ (slot : Slot) (code : LinkedCode), heap.state.slots[codeId]? = some slot ∧
        slot.handle = some code ∧
        heap.findOwner address = if slot.phase = .resolved then some code else none
  outside : ∀ address,
    (∀ codeId, published codeId → ¬Inside draft heap.image.library.codeBase codeId address) →
      heap.contains address = false ∧ heap.findStart address = none ∧ heap.findOwner address = none

variable {draft : Draft} {library : Library} {heap : Heap} {codeId address : Nat}
  {code : LinkedCode} {source : CodeDraft} {slot : Slot}

section Placed

variable (loaded : draft.Loaded heap.image.library) (fits : draft.Fits)
  (power : SegmentPower draft.settings)
include loaded fits power

/-- The segment map tells which code an address lies in. -/
theorem Inside.leads (inside : Inside draft heap.image.library.codeBase codeId address) :
    heap.image.codeIdOf? (address - heap.image.library.codeBase) = some codeId := by
  obtain ⟨source, described, above, below⟩ := inside
  have covered := draft.span_le codeId source
  exact codeIdOf_read loaded fits (hasSegmentSize_of_power power).2 heap.image.records described
    (by omega) (by omega)

theorem Inside.unique {first second : Nat}
    (one : Inside draft heap.image.library.codeBase first address)
    (other : Inside draft heap.image.library.codeBase second address) : first = second :=
  Option.some.inj ((one.leads loaded fits power).symm.trans (other.leads loaded fits power))

omit loaded fits power in
/-- Code in its place covers the addresses that were assembled for it. -/
theorem Lies.contains_iff (lies : Lies draft library codeId source code) :
    code.contains address = true ↔ Inside draft library.codeBase codeId address := by
  simp only [LinkedCode.contains, LinkedCode.stop, lies.start, lies.size, Bool.and_eq_true,
    decide_eq_true_eq]
  constructor
  · exact fun within => ⟨source, lies.described, within⟩
  · rintro ⟨other, described, within⟩
    obtain rfl := Option.some.inj (described.symm.trans lies.described)
    exact within

/-- A slot with code of the library owns exactly the addresses of that code, and a slot
with other code owns none. -/
theorem owns_iff (laid : Laid draft heap.image.library heap.state) :
    Owns heap address codeId slot code ↔
      heap.state.slots[codeId]? = some slot ∧ slot.handle = some code ∧
        Indigenous heap.image.library code ∧ code.contains address = true := by
  constructor
  · intro owns
    obtain ⟨other, taken, own⟩ := (laid.admitted codeId slot owns.found).mp owns.admitted
    obtain rfl := Option.some.inj (owns.handle.symm.trans taken)
    exact ⟨owns.found, owns.handle, own, owns.covers⟩
  · rintro ⟨found, handle, own, covers⟩
    have holds : heap.state.Holds codeId code := ⟨slot, found, handle⟩
    obtain ⟨source, lies⟩ := laid.lies codeId code holds own
    have inside := lies.contains_iff.mp covers
    have leads := inside.leads loaded fits power
    have admitted := (laid.admitted codeId slot found).mpr ⟨code, handle, own⟩
    have covered := laid.covered codeId code holds own
    have start := lies.start
    simp only [LinkedCode.contains, Bool.and_eq_true, decide_eq_true_eq] at covers
    have within : heap.state.extent.contains (address - heap.image.library.codeBase) = true :=
      covered.contains (by omega) (by omega)
    exact ⟨by omega, within, leads, found, handle, admitted, lies.contains_iff.mpr inside⟩

/-- In a state in which all code is in its place, the heap answers like a search
through the code that it holds. -/
theorem classifies_of_laid {published : Nat → Prop}
    (laid : Laid draft heap.image.library heap.state)
    (own : heap.state.Every (Indigenous heap.image.library))
    (held : ∀ codeId, published codeId ↔ ∃ code, heap.state.Holds codeId code) :
    Classifies draft published heap := by
  have owned : ∀ {address codeId}, published codeId →
      Inside draft heap.image.library.codeBase codeId address →
        ∃ slot code, Owns heap address codeId slot code := by
    intro address codeId shown inside
    obtain ⟨code, slot, found, handle⟩ := (held codeId).mp shown
    have mine := own codeId code ⟨slot, found, handle⟩
    obtain ⟨source, lies⟩ := laid.lies codeId code ⟨slot, found, handle⟩ mine
    exact ⟨slot, code, (owns_iff loaded fits power laid).mpr
      ⟨found, handle, mine, lies.contains_iff.mpr inside⟩⟩
  have shown : ∀ {address codeId slot code}, Owns heap address codeId slot code →
      published codeId ∧ Inside draft heap.image.library.codeBase codeId address := by
    intro address codeId slot code owns
    obtain ⟨found, handle, mine, covers⟩ := (owns_iff loaded fits power laid).mp owns
    obtain ⟨source, lies⟩ := laid.lies codeId code ⟨slot, found, handle⟩ mine
    exact ⟨(held codeId).mpr ⟨code, slot, found, handle⟩, lies.contains_iff.mp covers⟩
  have nothing : ∀ address,
      (∀ codeId, published codeId → ¬Inside draft heap.image.library.codeBase codeId address) →
        heap.owningSlot address = none := by
    intro address outside
    cases owning : heap.owningSlot address with
    | none => rfl
    | some both =>
      obtain ⟨codeId, owns⟩ := owningSlot_some.mp owning
      obtain ⟨was, inside⟩ := shown owns
      exact absurd inside (outside codeId was)
  refine
    { contains := ?_
      unique := fun _ _ _ one other => one.unique loaded fits power other
      start := ?_
      owner := ?_
      outside := ?_ }
  · intro address
    constructor
    · intro contained
      obtain ⟨both, owning⟩ := Option.isSome_iff_exists.mp contained
      obtain ⟨codeId, owns⟩ := owningSlot_some.mp owning
      exact ⟨codeId, shown owns⟩
    · rintro ⟨codeId, was, inside⟩
      obtain ⟨slot, code, owns⟩ := owned was inside
      exact Option.isSome_iff_exists.mpr ⟨_, owningSlot_some.mpr ⟨codeId, owns⟩⟩
  · intro address codeId was inside
    obtain ⟨slot, code, owns⟩ := owned was inside
    have holds : heap.state.Holds codeId code := ⟨slot, owns.found, owns.handle⟩
    obtain ⟨source, lies⟩ := laid.lies codeId code holds (own codeId code holds)
    rw [findStart, owningSlot_some.mpr ⟨codeId, owns⟩, Option.map_some, ← lies.start]
  · intro address codeId was inside
    obtain ⟨slot, code, owns⟩ := owned was inside
    refine ⟨slot, code, owns.found, owns.handle, ?_⟩
    rw [findOwner, owningSlot_some.mpr ⟨codeId, owns⟩]
    rfl
  · intro address outside
    have none := nothing address outside
    simp [Heap.contains, findStart, findOwner, none]

/-- Every state of every heap of an assembled library classifies addresses like a
search through its published code. -/
theorem Reaches.classifies {course : (service heap.image).Course} {journal : Journal}
    (created : ((Heap.create heap.image.library).run journal).1 = .ok heap)
    (stubs : ∀ codeId ∈ draft.stubs, ∃ code, heap.state.Holds codeId code)
    (reached : Reaches heap (fun _ task => Ordinary task) course) :
    Classifies draft (Published draft heap course) { heap with state := course.state.state } := by
  have pristine := created_pristine created
  have chronicle := reached.chronicle pristine
  have orderly : heap.state.Orderly := fun codeId slot found => (pristine codeId slot found).orderly
  have laid := reached.laid loaded fits orderly (created_laid loaded fits created)
  have own := reached.indigenous created
  have grown : heap.state.Grows course.state.state := chronicle.since _ (by simp [earlier])
  let later : Heap := { heap with state := course.state.state }
  refine @classifies_of_laid draft later loaded fits power _ laid own fun codeId => ?_
  rw [chronicle.present codeId]
  constructor
  · rintro (stub | resolved)
    · obtain ⟨code, holds⟩ := stubs codeId stub
      exact (chronicle.present codeId).mp ⟨code, grown.holds holds⟩
    · exact resolved
  · exact .inr

end Placed

/-! ## Built blobs -/

variable {edits : List Edit} {settings : BuildSettings} {engineVersion : String}

/-- Every blob that is built of code that can be entered is loaded and gets a
heap, and the heap classifies addresses like a search through its published code,
in whatever order the engine and the collector work with it. -/
theorem classification (writable : Edits.Writable edits) (power : SegmentPower settings)
    (entered : ∀ added ∈ Edits.codes edits, Entered added.2)
    (fits : (Draft.describe settings engineVersion edits).Fits)
    (name : String) (id : Nat) (options : LoadOptions) :
    ∃ (library : Library) (heap : Heap),
      (∀ journal, ((Library.load (Draft.describe settings engineVersion edits).assemble name id
        options).run journal).1 = .ok library) ∧
      (∀ journal, ((Heap.create library).run journal).1 = .ok heap) ∧
      heap.image.library = library ∧
      ∀ course, Reaches heap (fun _ task => Ordinary task) course →
        Classifies (Draft.describe settings engineVersion edits)
          (Published (Draft.describe settings engineVersion edits) heap course)
          { heap with state := course.state.state } := by
  rw [Edits.describe_eq writable.known] at fits ⊢
  obtain ⟨library, heap, accepted, loaded, created, same, stubs⟩ :=
    built_heap writable power entered fits name id options
  obtain rfl : heap.image.library = library := by
    rw [same]
    rfl
  exact ⟨_, heap, accepted, created, rfl, fun course reached =>
    reached.classifies loaded fits power (created []) stubs⟩

theorem classification_sample : ∃ (library : Library) (heap : Heap),
    (∀ journal, ((Library.load (Draft.describe {} "1" Edits.sample).assemble "lib" 0 {}).run
      journal).1 = .ok library) ∧
    (∀ journal, ((Heap.create library).run journal).1 = .ok heap) ∧
    heap.image.library = library ∧
    ∀ course, Reaches heap (fun _ task => Ordinary task) course →
      Classifies (Draft.describe {} "1" Edits.sample)
        (Published (Draft.describe {} "1" Edits.sample) heap course)
        { heap with state := course.state.state } :=
  classification Edits.sample_writable ⟨6, by decide⟩ sample_entered
    (Draft.fits_of_length (by decide +kernel)) "lib" 0 {}

end Precompiled.Heap
