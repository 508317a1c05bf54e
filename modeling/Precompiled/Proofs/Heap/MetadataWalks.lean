import Precompiled.Proofs.Heap.Provision
import Precompiled.Proofs.Heap.Traversals

/-! The walks over metadata. The collector is shown the metadata of the methods in use, and
an inspection is shown everything in the tables. A built blob gives every piece of code
metadata slots of its own, in the order of code ids, and a linked method knows exactly
these. So the first walk misses none of them and comes to no slot twice, and since
methods are provided it comes to none that is empty. -/
namespace Precompiled.Heap

open Blob

variable {heap : Heap} {image : Image} {state : State} {draft : Draft} {code later : LinkedCode}
  {cell after : Cell} {asked : List Question} {result : Unit}

/-! ## What is shown -/

/-- Who looks at one slot after the other finds the resolved ones. -/
theorem resolved_values {α : Type} (table : Got α) :
    (List.range table.size).filterMap table.get = table.resolved.map Prod.snd := by
  have looked : (List.range table.size).filterMap table.get = table.slots.filterMap id :=
    filterMap_range table.slots id (Nat.le_refl _)
  have placed : table.slots.filterMap id = table.slots.zipIdx.filterMap Prod.fst := by
    conv_lhs => rw [← List.zipIdx_map_fst 0 table.slots, List.filterMap_map]
    rfl
  rw [looked, placed, Got.resolved, List.map_filterMap]
  congr 1
  funext slot
  rcases slot with ⟨_ | value, index⟩ <;> rfl

/-- A walk over a table shows the resolved slots. -/
theorem visitTable_concludes {α : Type} {view : State → Got α} {shown : α → MetaspaceEntry} :
    (visitEach (fun state index => (view state).get index)
      (fun value => Action.ask (S := surroundings) (.entry (shown value)))
      (List.range (view cell.state).size) cell).Concludes asked result after ↔
      asked = (view cell.state).resolved.map (fun slot => .entry (shown slot.2)) ∧ after = cell := by
  have same : (view cell.state).resolved.map (fun slot => Question.entry (shown slot.2)) =
      ((view cell.state).resolved.map Prod.snd).flatMap fun value => [.entry (shown value)] := by
    rw [← List.map_eq_flatMap, List.map_map]
    rfl
  rw [same, ← resolved_values]
  exact visitEach_concludes fun _ _ _ _ => show_concludes

theorem metadata_conclude : (Task.perform image .metadata cell).Concludes asked result after ↔
    asked = cell.state.ownedMetadata.map .metadata ∧ after = cell := by
  have shown : cell.state.ownedMetadata.map Question.metadata =
      cell.state.aliveMethods.flatMap fun code =>
        (code.metadataSlots.filterMap cell.state.metadata.get).map .metadata := List.map_flatMap
  rw [shown]
  refine visitMethods_concludes fun code asked result after => ?_
  rw [List.map_eq_flatMap]
  exact visitEach_concludes fun _ _ _ _ => show_concludes

theorem entries_conclude : (Task.perform image .entries cell).Concludes asked result after ↔
    asked = cell.state.metaspaceEntries.map .entry ∧ after = cell := by
  have shown : cell.state.metaspaceEntries.map Question.entry =
      cell.state.metaspace.resolved.map (fun slot => .entry (.klass slot.2)) ++
        cell.state.metadata.resolved.map fun slot => .entry (.metadata slot.2) := by
    rw [State.metaspaceEntries, List.map_append, List.map_map, List.map_map]
    rfl
  rw [shown]
  simp only [Task.perform, visitEntries, Action.bind_apply, Action.read_apply, Dialogue.bind_done]
  refine Dialogue.Concludes.bind_iff.trans ⟨?_, ?_⟩
  · rintro ⟨first, _, middle, second, classes, values, rfl⟩
    obtain ⟨rfl, rfl⟩ := visitTable_concludes.mp classes
    obtain ⟨rfl, rfl⟩ := visitTable_concludes.mp values
    exact ⟨rfl, rfl⟩
  · rintro ⟨rfl, rfl⟩
    exact ⟨_, (), _, _, visitTable_concludes.mpr ⟨rfl, rfl⟩, visitTable_concludes.mpr ⟨rfl, rfl⟩, rfl⟩

/-! ## Whose slots are where -/

/-- A method has the metadata slots that were laid out for its code id, one for each of
the descriptors that it was described with. -/
def Allotted (draft : Draft) (code : LinkedCode) : Prop :=
  ∃ drafted, draft.codes[code.codeId]? = some drafted ∧
    code.metadataSlots = List.range' (draft.metadataFrom code.codeId) drafted.method.metadata.length

/-- Code that is linked has the metadata slots of its record. -/
theorem Linked.allotted {entry : ClassEntry} {holder : ClassRef} {stubs : List CodeRecord}
    {library : Library} (loaded : draft.Loaded image.library) (fits : draft.Fits)
    (prepared : prepare library = .ok (image, stubs)) (registered : image.Registered)
    (linked : Linked image entry holder code) : Allotted draft code := by
  obtain ⟨records, record, detail, name, live, listed, among, detailed, -, placed⟩ := linked.placed
  obtain ⟨offset, start, geometry, rfl⟩ := place_ok.mp placed
  have found := registered entry record linked.known (mem_methods.mpr ⟨records, listed, among⟩)
  obtain ⟨rfl, -, -⟩ := prepare_claims prepared
  obtain ⟨drafted, known, same⟩ := Draft.record_read loaded fits prepared found
  have begins := Draft.metadataStart_read fits known
  rw [← same, geometry.slots] at begins
  obtain rfl := Option.some.inj begins
  have read := Draft.detailOf_read loaded fits known
  rw [← same, detailed] at read
  obtain rfl := Except.ok.inj read
  refine ⟨drafted, known, ?_⟩
  simp [LinkedCode.metadataSlots, placedAt, Draft.detailIn]

/-- The slots of methods in the order of code ids are in order themselves. -/
theorem allotted_increasing {codes : List LinkedCode} (allotted : ∀ code ∈ codes, Allotted draft code)
    (order : codes.Pairwise fun first second => first.codeId < second.codeId) :
    (codes.flatMap LinkedCode.metadataSlots).Pairwise (· < ·) := by
  refine List.pairwise_flatMap.mpr ⟨fun code member => List.pairwise_lt_range' 1, ?_⟩
  refine order.imp_of_mem fun {first second} among member less index own other others => ?_
  obtain ⟨drafted, known, slots⟩ := allotted first among
  obtain ⟨rival, -, theirs⟩ := allotted second member
  rw [slots, List.mem_range'_1] at own
  rw [theirs, List.mem_range'_1] at others
  have apart := Draft.metadataFrom_lt less known
  omega

/-! ## The walks are exact -/

/-- The metadata slots of the methods in use, one method after the other. -/
def State.ownedSlots (state : State) : List Nat :=
  state.aliveMethods.flatMap LinkedCode.metadataSlots

/-- A table is listed with each slot that is not null, and with none twice. -/
structure ListsOnce {α : Type} (table : Got α) (listed : List (Nat × α)) : Prop where
  present : ∀ index value, (index, value) ∈ listed ↔ table.get index = some value
  increasing : listed.Pairwise fun first second => first.1 < second.1

theorem resolved_listsOnce {α : Type} (table : Got α) : ListsOnce table table.resolved where
  present _ _ := Got.mem_resolved
  increasing := table.resolved_increasing

/-- What the walks over metadata show to a visitor who leaves the heap alone, if its library
was assembled from the draft. -/
structure WalksExact (draft : Draft) (image : Image) (state : State) : Prop where
  /-- The methods in use are those of the resolved slots; stubs are left out. -/
  methods : ∀ code, code ∈ state.aliveMethods ↔ ∃ slot : Slot,
    state.slots[code.codeId]? = some slot ∧ slot.phase = .resolved ∧
      slot.handle = some code ∧ code.isStub = false
  order : state.aliveMethods.Pairwise fun first second => first.codeId < second.codeId
  /-- Their slots are those that were laid out for them: none is left out. -/
  allotted : ∀ code ∈ state.aliveMethods, Allotted draft code
  /-- No metadata slot belongs to two methods, or twice to one. -/
  apart : state.ownedSlots.Pairwise (· < ·)
  /-- None of their slots is null. -/
  values : state.ownedMetadata.map some = state.ownedSlots.map state.metadata.get
  /-- The walk for the collector shows the values of these slots. -/
  metadata : ∀ cell : Cell, cell.state = state → ∀ asked result after,
    (Task.perform image .metadata cell).Concludes asked result after ↔
      asked = state.ownedMetadata.map .metadata ∧ after = cell
  /-- The walk for inspection shows the entries of both tables. -/
  entries : ∀ cell : Cell, cell.state = state → ∀ asked result after,
    (Task.perform image .entries cell).Concludes asked result after ↔
      asked = state.metaspaceEntries.map .entry ∧ after = cell
  tables : ∃ classes values, ListsOnce state.metaspace classes ∧ ListsOnce state.metadata values ∧
    state.metaspaceEntries = classes.map (fun slot => .klass slot.2) ++
      values.map fun slot => .metadata slot.2
  /-- Whatever the collector is shown is among them. -/
  among : ∀ value ∈ state.ownedMetadata, .metadata value ∈ state.metaspaceEntries

theorem mem_aliveMethods (orderly : state.Orderly) : code ∈ state.aliveMethods ↔ ∃ slot : Slot,
    state.slots[code.codeId]? = some slot ∧ slot.phase = .resolved ∧ slot.handle = some code ∧
      code.isStub = false := by
  simp only [State.aliveMethods, List.mem_filter, List.mem_filterMap, executable_some,
    Bool.not_eq_eq_eq_not, Bool.not_true]
  constructor
  · rintro ⟨⟨slot, among, resolved, held⟩, method⟩
    obtain ⟨codeId, found⟩ := List.mem_iff_getElem?.mp among
    obtain ⟨-, rfl⟩ := (orderly codeId slot found).handle code held
    exact ⟨slot, found, resolved, held, method⟩
  · rintro ⟨slot, found, resolved, held, method⟩
    exact ⟨⟨slot, List.mem_of_getElem? found, resolved, held⟩, method⟩

/-- Whatever method is in use is held. -/
theorem held_of_alive (orderly : state.Orderly) (alive : code ∈ state.aliveMethods) :
    state.Holds code.codeId code ∧ code.isStub = false := by
  obtain ⟨slot, found, -, held, method⟩ := (mem_aliveMethods orderly).mp alive
  exact ⟨⟨slot, found, held⟩, method⟩

/-- The methods in use have all their metadata. -/
theorem WellStocked.values (stocked : WellStocked state) :
    state.ownedMetadata.map some = state.ownedSlots.map state.metadata.get := by
  have owned : state.ownedMetadata = state.ownedSlots.filterMap state.metadata.get :=
    List.filterMap_flatMap.symm
  rw [owned, List.map_filterMap_some_eq_filter_map_isSome, List.filter_eq_self]
  intro entry member
  obtain ⟨index, among, rfl⟩ := List.mem_map.mp member
  obtain ⟨code, alive, mine⟩ := List.mem_flatMap.mp among
  obtain ⟨holds, method⟩ := held_of_alive stocked.orderly alive
  obtain ⟨value, held⟩ := stocked.provided _ code holds method index mine
  rw [held, Option.isSome_some]

/-- Where methods are provided and have slots of their own, the walks are exact. -/
theorem WellStocked.walksExact (stocked : WellStocked state)
    (allotted : ∀ code ∈ state.aliveMethods, Allotted draft code) : WalksExact draft image state where
  methods code := mem_aliveMethods stocked.orderly
  order := stocked.orderly.increasing.filter _
  allotted := allotted
  apart := allotted_increasing allotted (stocked.orderly.increasing.filter _)
  values := stocked.values
  metadata := by
    rintro cell rfl asked result after
    exact metadata_conclude
  entries := by
    rintro cell rfl asked result after
    exact entries_conclude
  tables := ⟨_, _, resolved_listsOnce _, resolved_listsOnce _, rfl⟩
  among value member := by
    obtain ⟨code, -, mine⟩ := List.mem_flatMap.mp member
    obtain ⟨index, -, held⟩ := List.mem_filterMap.mp mine
    exact List.mem_append_right _ (List.mem_map.mpr ⟨(index, value), Got.mem_resolved.mpr held, rfl⟩)

section Built

variable {edits : List Edit} {settings : BuildSettings} {engineVersion name : String} {id : Nat}
  {options : LoadOptions} {loading journal : Journal} {library : Library}

/-- In the heap of a built blob, as long as nobody publishes code that the heap does not
hold, the walks over metadata are exact in every state, whatever the engine answers and
whoever calls back: the metadata of a method is there as soon as the method is in use,
nobody shares it, and nothing takes it away. -/
theorem metadata_walks_exact (known : Edits.Known edits)
    (fits : (Draft.describe settings engineVersion edits).Fits)
    (loaded : ((Library.load (Draft.describe settings engineVersion edits).assemble name id
      options).run loading).1 = .ok library)
    (created : ((Heap.create library).run journal).1 = .ok heap)
    {course : (service heap.image).Course} (reached : Reaches heap Native course) :
    WalksExact (Draft.describe settings engineVersion edits) heap.image course.state.state := by
  have registered := built_registered known fits loaded created
  have pristine := created_pristine created
  have stocked := reached.stocked registered created
  obtain ⟨assembled, stubs, prepared, -⟩ := built_prepared known fits.addressable loaded created
  rw [Edits.describe_eq known] at fits ⊢
  have linked (entry : ClassEntry) (holder : ClassRef) (code : LinkedCode)
      (linked : Linked heap.image entry holder code) :
      code.isStub = false → Allotted (Edits.summary settings engineVersion edits) code :=
    fun _ => linked.allotted assembled fits prepared registered
  have start : heap.state.Every fun code =>
      code.isStub = false → Allotted (Edits.summary settings engineVersion edits) code := by
    rintro codeId code ⟨slot, found, held⟩ method
    obtain ⟨-, isStub, -⟩ := (pristine codeId slot found).stub code held
    cases method.symm.trans isStub
  have every := reached.every linked pristine start
  refine stocked.walksExact fun code alive => ?_
  obtain ⟨holds, method⟩ := held_of_alive stocked.orderly alive
  exact every _ code holds method

end Built

/-! ## A class with metadata -/

/-- A class with three methods, of which the second one has no metadata. -/
def annotated : List Edit :=
  [.addClass "A" 7,
   .addMethod 0 { name := "m", signature := "()V", metadata := ["x", "yy"] },
   .addMethod 0 { name := "n", signature := "()V" },
   .addMethod 0 { name := "o", signature := "()V", metadata := ["zzz"] }]

/-- The heap after the class was loaded. -/
def annotatedCell (heap : Heap) : Cell :=
  Service.carryOut generous (service heap.image) [.call (.loadClass sampleView)]
    { state := heap.state }

set_option maxRecDepth 1000000 in
theorem annotated_owned : (built? annotated).any (fun built =>
    (annotatedCell built.2).state.ownedSlots == [0, 1, 2] &&
      (annotatedCell built.2).state.ownedMetadata.map Handle.raw == [1, 2, 3]) = true := by
  decide +kernel

theorem metadata_walks_exact_annotated : ∃ (library : Library) (heap : Heap)
    (course : (service heap.image).Course),
    ((Library.load (Draft.describe {} "1" annotated).assemble "lib" 0
      { verifyChecksum := false }).run []).1 = .ok library ∧
    ((Heap.create library).run []).1 = .ok heap ∧ Reaches heap Native course ∧
    course.state.state.ownedSlots = [0, 1, 2] ∧
    course.state.state.ownedMetadata.map Handle.raw = [1, 2, 3] ∧
    WalksExact (Draft.describe {} "1" annotated) heap.image course.state.state := by
  obtain ⟨⟨library, heap⟩, built, owned⟩ := (Option.any_eq_true _ _).mp annotated_owned
  obtain ⟨loaded, created⟩ := built_some built
  simp only [Bool.and_eq_true, beq_iff_eq] at owned
  have known : Edits.Known annotated := by decide
  have fits : (Draft.describe {} "1" annotated).Fits := Draft.fits_of_length (by decide +kernel)
  have native : ∀ task ∈ [Task.call (.loadClass sampleView)],
      ∀ other : (service heap.image).Course, other.pending = [] → Native other task := by
    intro task member other _ code same
    rw [List.mem_singleton.mp member] at same
    cases same
  let start : (service heap.image).Course := { state := { state := heap.state } }
  obtain ⟨course, onward, -, ended⟩ :=
    Service.Course.carries_out generous _ start rfl native
  have reached : Reaches heap Native course := ⟨{}, [], onward⟩
  have state : course.state = annotatedCell heap := ended
  rw [← state] at owned
  exact ⟨library, heap, course, loaded, created, reached, owned.1, owned.2,
    metadata_walks_exact known fits loaded created reached⟩

end Precompiled.Heap
