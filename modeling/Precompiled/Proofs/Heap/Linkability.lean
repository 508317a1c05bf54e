import Precompiled.Proofs.Heap.Misses

/-! Which methods a live class gets. Loads share reference tables, and a method that
cannot be linked leaves slots filled behind it. All the same, before an engine whose
answers stand in a table, a load links all the code that can be linked once its class
is bound, and loading the class again at once changes nothing. -/
namespace Precompiled.Heap

open Blob

variable {heap : Heap} {image : Image} {table : Engine.Table} {view : ClassView}
  {before bound after state : State} {entry : ClassEntry} {record : CodeRecord}
  {detail : CodeDetail} {codeId count start : Nat} {codes : Nat → Prop} {α : Type}

/-! ## What linking takes -/

/-- A slot holds a value, or its text can be read and there is a value for it. -/
def Obtainable (slots : Got α) (index : Nat) (text : Except Error String)
    (answer : String → Option α) : Prop :=
  (∃ value, slots.get index = some value) ∨
    ∃ descriptor value, text = .ok descriptor ∧ answer descriptor = some value

/-- The code of a record can be linked for a live class that is bound. -/
structure Linkable (image : Image) (table : Engine.Table) (view : ClassView) (state : State)
    (record : CodeRecord) (detail : CodeDetail) : Prop where
  /-- The class has the method. It has no code of its own and is not excluded. -/
  wanted : ∃ name live, image.library.methodName record = .ok name ∧
    table (.findMethod view.klass name) = some live ∧ live.hasCode = false ∧ live.excluded = false
  classes : ∀ index ∈ detail.classRefs, index.toNat < state.metaspace.size ∧
    Obtainable state.metaspace index.toNat (image.library.metaspaceName index.toNat)
      fun name => table (.findClass name view.loader)
  objects : ∀ index ∈ detail.objectRefs, index.toNat < state.objects.size ∧
    Obtainable state.objects index.toNat (image.library.objectName index.toNat)
      fun descriptor => table (.resolveObject descriptor)
  metadata : ∀ localIndex offset, detail.metadataNames[localIndex]? = some offset →
    ∃ start, natural? record.metadataStart = some start ∧
      Obtainable state.metadata (start + localIndex) (image.library.poolName offset)
        fun descriptor => table (.resolveMetadata descriptor view)
  entry : detail.entryOffset.toNat < detail.codeSize.toNat
  verifiedEntry : detail.verifiedEntryOffset.toNat < detail.codeSize.toNat

/-- All slots that code refers to hold something. -/
structure Equipped (record : CodeRecord) (detail : CodeDetail) (state : State) : Prop where
  classes : ∀ index ∈ detail.classRefs, ∃ klass, state.metaspace.get index.toNat = some klass
  objects : ∀ index ∈ detail.objectRefs, ∃ object, state.objects.get index.toNat = some object
  metadata : ∀ localIndex < detail.metadataNames.length, ∃ start value,
    natural? record.metadataStart = some start ∧
      state.metadata.get (start + localIndex) = some value

/-- Whatever a slot holds, its text can be read. -/
abbrev Named (image : Image) : State → Prop :=
  Traced image (fun _ _ => True) (fun _ _ => True) fun _ _ => True

/-- But for its entries, the code of a record can be placed, and nobody else has its
metadata slots. -/
structure Sited (image : Image) (codeId : Nat) (record : CodeRecord) (detail : CodeDetail)
    (start : Nat) : Prop where
  detailed : image.library.detailOf record = .ok detail
  begins : natural? record.metadataStart = some start
  room : start + detail.metadataNames.length ≤ image.library.header.metadataSize.toNat
  own : ∀ localIndex < detail.metadataNames.length, ∀ other otherIndex descriptor,
    metadataSlot image other otherIndex = .ok (descriptor, start + localIndex) →
    other = codeId ∧ otherIndex = localIndex
  placed : detail.entryOffset.toNat < detail.codeSize.toNat ∧
      detail.verifiedEntryOffset.toNat < detail.codeSize.toNat →
    ∃ offset, Geometry image record detail offset start

/-- There is a value for a slot if it can be obtained. -/
theorem supplies_iff_obtainable {slots : Got α} {index : Nat} {text : Except Error String}
    {answer : String → Option α}
    (named : ∀ value, slots.get index = some value → ∃ descriptor, text = .ok descriptor) :
    Supplies (describedAt index text) answer slots ↔
      index < slots.size ∧ Obtainable slots index text answer := by
  constructor
  · rintro ⟨descriptor, other, described, inside, held | ⟨value, told⟩⟩
    · obtain ⟨-, rfl⟩ := describedAt_ok.mp described
      exact ⟨inside, .inl held⟩
    · obtain ⟨known, rfl⟩ := describedAt_ok.mp described
      exact ⟨inside, .inr ⟨descriptor, value, known, told⟩⟩
  · rintro ⟨inside, ⟨value, held⟩ | ⟨descriptor, value, known, told⟩⟩
    · obtain ⟨descriptor, known⟩ := named value held
      exact ⟨descriptor, index, describedAt_ok.mpr ⟨known, rfl⟩, inside, .inl ⟨value, held⟩⟩
    · exact ⟨descriptor, index, describedAt_ok.mpr ⟨known, rfl⟩, inside, .inr ⟨value, told⟩⟩

theorem shows_at {slots : Got α} {index : Nat} {text : Except Error String}
    (shows : Shows (describedAt index text) slots) : ∃ value, slots.get index = some value := by
  obtain ⟨descriptor, other, value, described, held⟩ := shows
  obtain ⟨-, rfl⟩ := describedAt_ok.mp described
  exact ⟨value, held⟩

namespace Sited

variable {owner : Option Nat} {localIndex : Nat} {offset : Int32}

/-- A metadata slot is described by its entry in the details. -/
theorem metadataSlot_eq (sited : Sited image codeId record detail start)
    (found : image.record? codeId = some ⟨record, owner⟩)
    (listed : detail.metadataNames[localIndex]? = some offset) :
    metadataSlot image codeId localIndex =
      describedAt (start + localIndex) (image.library.poolName offset) := by
  unfold metadataSlot describedAt
  simp only [found, sited.detailed, Outcome.ok_bind, listed, sited.begins]
  cases image.library.poolName offset <;> rfl

/-- All that code refers to can be resolved exactly if all of it can be obtained. -/
theorem resolves_iff (sited : Sited image codeId record detail start)
    (found : image.record? codeId = some ⟨record, owner⟩) (named : Named image state)
    (sized : state.metadata.size = image.library.header.metadataSize.toNat) :
    Resolves image table view state codeId detail ↔
      (∀ index ∈ detail.classRefs, index.toNat < state.metaspace.size ∧
        Obtainable state.metaspace index.toNat (image.library.metaspaceName index.toNat)
          fun name => table (.findClass name view.loader)) ∧
      (∀ index ∈ detail.objectRefs, index.toNat < state.objects.size ∧
        Obtainable state.objects index.toNat (image.library.objectName index.toNat)
          fun descriptor => table (.resolveObject descriptor)) ∧
      ∀ localIndex offset, detail.metadataNames[localIndex]? = some offset →
        Obtainable state.metadata (start + localIndex) (image.library.poolName offset)
          fun descriptor => table (.resolveMetadata descriptor view) := by
  have classes (index : Nat) :
      Supplies (describedAt index (image.library.metaspaceName index))
        (fun name => table (.findClass name view.loader)) state.metaspace ↔ _ :=
    supplies_iff_obtainable fun klass held =>
      (named.metaspace index klass held).imp fun _ => And.left
  have objects (index : Nat) :
      Supplies (describedAt index (image.library.objectName index))
        (fun descriptor => table (.resolveObject descriptor)) state.objects ↔ _ :=
    supplies_iff_obtainable fun object held =>
      (named.objects index object held).imp fun _ => And.left
  have metadata (localIndex : Nat) (offset : Int32)
      (listed : detail.metadataNames[localIndex]? = some offset) :
      Supplies (metadataSlot image codeId localIndex)
        (fun descriptor => table (.resolveMetadata descriptor view)) state.metadata ↔
      Obtainable state.metadata (start + localIndex) (image.library.poolName offset)
        fun descriptor => table (.resolveMetadata descriptor view) := by
    have described := sited.metadataSlot_eq found listed
    have inside := (List.getElem?_eq_some_iff.mp listed).1
    have room := sited.room
    rw [described]
    refine (supplies_iff_obtainable fun value held => ?_).trans (and_iff_right (by omega))
    obtain ⟨other, otherIndex, descriptor, there, -⟩ := named.metadata _ value held
    obtain ⟨rfl, rfl⟩ := sited.own localIndex inside other otherIndex descriptor there
    exact ⟨descriptor, (describedAt_ok.mp (described.symm.trans there)).1⟩
  constructor
  · intro resolves
    refine ⟨fun index member => (classes _).mp (resolves.classes index member),
      fun index member => (objects _).mp (resolves.objects index member),
      fun localIndex offset listed => (metadata localIndex offset listed).mp ?_⟩
    have inside := (List.getElem?_eq_some_iff.mp listed).1
    exact resolves.metadata localIndex (List.mem_range.mpr inside)
  · rintro ⟨classRefs, objectRefs, metadataNames⟩
    refine ⟨fun index member => (classes _).mpr (classRefs index member), fun localIndex member => ?_,
      fun index member => (objects _).mpr (objectRefs index member)⟩
    have listed := List.getElem?_eq_getElem (List.mem_range.mp member)
    exact (metadata localIndex _ listed).mpr (metadataNames localIndex _ listed)

/-- A live class links code for a record exactly if the code can be linked. -/
theorem links_iff (sited : Sited image (slotNumber record) record detail start)
    (found : image.record? (slotNumber record) = some ⟨record, owner⟩) (named : Named image state)
    (sized : state.metadata.size = image.library.header.metadataSize.toNat) :
    (∃ code, Links image table entry view (Resolves image table view state) record code) ↔
      Linkable image table view state record detail := by
  have resolves : Resolves image table view state (slotNumber record) detail ↔ _ :=
    sited.resolves_iff found named sized
  constructor
  · rintro ⟨code, ⟨wants, references, placed⟩⟩
    obtain rfl := Except.ok.inj (wants.detailed.symm.trans sited.detailed)
    obtain ⟨classes, objects, metadata⟩ := resolves.mp references
    obtain ⟨offset, place, geometry, -⟩ := place_ok.mp placed
    exact
      { wanted := ⟨_, _, wants.named, wants.declared, wants.lacking, wants.allowed⟩
        classes := classes
        objects := objects
        metadata := fun localIndex offset listed =>
          ⟨start, sited.begins, metadata localIndex offset listed⟩
        entry := geometry.entry
        verifiedEntry := geometry.verifiedEntry }
  · intro linkable
    obtain ⟨name, live, named, declared, lacking, allowed⟩ := linkable.wanted
    obtain ⟨offset, geometry⟩ := sited.placed ⟨linkable.entry, linkable.verifiedEntry⟩
    refine ⟨_, .placed ⟨named, declared, lacking, allowed, sited.detailed⟩ (resolves.mpr ?_)
      (place_ok.mpr ⟨offset, start, geometry, rfl⟩)⟩
    refine ⟨linkable.classes, linkable.objects, fun localIndex offset listed => ?_⟩
    obtain ⟨place, begins, obtainable⟩ := linkable.metadata localIndex offset listed
    obtain rfl := Option.some.inj (sited.begins.symm.trans begins)
    exact obtainable

theorem equipped (sited : Sited image codeId record detail start)
    (found : image.record? codeId = some ⟨record, owner⟩)
    (furnished : Furnished image codeId detail state) : Equipped record detail state where
  classes index member := shows_at (furnished.classes index member)
  objects index member := shows_at (furnished.objects index member)
  metadata localIndex inside := by
    have shows := furnished.metadata localIndex (List.mem_range.mpr inside)
    rw [sited.metadataSlot_eq found (List.getElem?_eq_getElem inside)] at shows
    obtain ⟨value, held⟩ := shows_at shows
    exact ⟨start, value, sited.begins, held⟩

end Sited

/-! ## One load -/

/-- What an image has to be like for the code of its classes to be found and placed. -/
structure Image.Ordered (image : Image) : Prop where
  labelled : image.Labelled
  registered : image.Registered
  /-- What is recorded for a class is among its methods. -/
  listed : ∀ codeId record classId, image.record? codeId = some ⟨record, some classId⟩ →
    slotNumber record = codeId ∧ ∀ entry, image.classEntry? classId = some entry →
      record ∈ methods image entry
  sited : ∀ codeId owned, image.record? codeId = some owned →
    ∃ detail start, Sited image codeId owned.record detail start

/-- What becomes of slots when a live class that is bound is loaded. -/
structure Fulfils (image : Image) (table : Engine.Table) (view : ClassView) (entry : ClassEntry)
    (before bound : State) (count : Nat) (after : State) : Prop where
  /-- The load reports how many slots become executable. -/
  counted : ∃ codeIds, Enumerates codeIds (Rises before after) ∧ codeIds.length = count
  /-- Of the slots of the class those become executable that are unresolved and whose
  code can be linked, and all that their code refers to is there. -/
  linked : ∀ codeId record, image.record? codeId = some ⟨record, some entry.classId⟩ →
    ∃ detail, image.library.detailOf record = .ok detail ∧
      (Rises before after codeId ↔ before.phase? codeId = some .unresolved ∧
        Linkable image table view bound record detail) ∧
      (Rises before after codeId → Equipped record detail after)
  /-- No other slots become executable, and slots that do not are left alone. -/
  own : ∀ codeId, Rises before after codeId → image.Assigns codeId entry.classId
  others : ∀ codeId, ¬Rises before after codeId → after.slot? codeId = before.slot? codeId

section Load

variable (ordered : image.Ordered)
  (loads : Loads image table entry view (OwnSlot image entry) (methods image entry) before after)
include ordered loads

/-- The slots that become executable are free before, and the class has code for them. -/
theorem Loads.risen (present : image.classEntry? entry.classId = some entry)
    (rises : Rises before after codeId) : ∃ record,
      image.record? codeId = some ⟨record, some entry.classId⟩ ∧ slotNumber record = codeId ∧
        before.phase? codeId = some .unresolved ∧
        (∃ code, Links image table entry view (Resolves image table view before) record code) ∧
        ∀ detail, image.library.detailOf record = .ok detail → Furnished image codeId detail after := by
  obtain ⟨fresh, risen⟩ := rises
  rcases loads.slots codeId with same | ⟨free, record, member, number, code, detail, -, detailed, there⟩
  · rw [phase?_of_slot?, same, ← phase?_of_slot?] at risen
    exact absurd risen fresh
  have found := ordered.registered entry record present member
  rcases loads.decided before (.refl _) codeId free with
    ⟨still, -⟩ | ⟨other, among, own, code, links, -⟩
  · rw [phase?_of_slot?, still] at risen
    cases risen
  have same := ordered.registered entry other present among
  rw [own, ← number, found] at same
  obtain rfl : record = other := congrArg OwnedRecord.record (Option.some.inj same)
  refine ⟨record, number ▸ found, number, ?_, ⟨code, links⟩, fun other known => ?_⟩
  · rw [phase?_of_slot?, free]
    rfl
  · obtain rfl := Except.ok.inj (detailed.symm.trans known)
    exact there

/-- A slot becomes executable if the class has code for it. -/
theorem Loads.rises (orderly : before.Orderly)
    (present : image.classEntry? entry.classId = some entry)
    (found : image.record? codeId = some ⟨record, some entry.classId⟩)
    (unresolved : before.phase? codeId = some .unresolved)
    (links : ∃ code, Links image table entry view (Resolves image table view before) record code) :
    Rises before after codeId := by
  obtain ⟨number, listed⟩ := ordered.listed codeId record entry.classId found
  have member := listed entry present
  have free : before.slot? codeId = some (.unresolved, none) := by
    obtain ⟨slot, there, phase⟩ := Option.map_eq_some_iff.mp unresolved
    refine slot?_eq_some.mpr ⟨slot, there, phase, ?_⟩
    cases held : slot.handle with
    | none => rfl
    | some code => exact absurd phase ((orderly codeId slot there).handle code held).1
  refine ⟨by simp [unresolved], ?_⟩
  rcases loads.decided before (.refl _) codeId free with
    ⟨-, never⟩ | ⟨other, -, -, code, -, stored⟩
  · obtain ⟨code, links⟩ := links
    exact absurd links (never record member number code)
  · rw [phase?_of_slot?, stored]
    rfl

/-- Publishing the methods of a class puts the code into slots that can be linked. -/
theorem Loads.fulfils (orderly : before.Orderly)
    (present : image.classEntry? entry.classId = some entry)
    (named : Named image before)
    (sized : before.metadata.size = image.library.header.metadataSize.toNat)
    (raised : Raised before count after) :
    Fulfils image table view entry before before count after where
  counted := raised.counted
  own codeId rises := by
    obtain ⟨record, found, -⟩ := loads.risen ordered present rises
    exact ⟨_, found, rfl⟩
  others codeId still := by
    rcases loads.slots codeId with same | ⟨free, -, -, -, code, detail, stored, -⟩
    · exact same
    · refine absurd ⟨?_, ?_⟩ still
      · simp [phase?_of_slot?, free]
      · simp [phase?_of_slot?, stored]
  linked codeId record found := by
    obtain ⟨detail, start, sited⟩ := ordered.sited codeId _ found
    obtain ⟨rfl, -⟩ := ordered.listed codeId record entry.classId found
    refine ⟨detail, sited.detailed, ⟨fun rises => ?_, fun ⟨unresolved, linkable⟩ => ?_⟩, fun rises => ?_⟩
    · obtain ⟨other, same, -, unresolved, links, -⟩ := loads.risen ordered present rises
      obtain rfl : record = other := congrArg OwnedRecord.record (Option.some.inj (found.symm.trans same))
      exact ⟨unresolved, (sited.links_iff found named sized).mp links⟩
    · exact loads.rises ordered orderly present found unresolved
        ((sited.links_iff found named sized).mpr linkable)
    · obtain ⟨other, same, -, -, -, furnished⟩ := loads.risen ordered present rises
      obtain rfl : record = other := congrArg OwnedRecord.record (Option.some.inj (found.symm.trans same))
      exact sited.equipped found (furnished detail sited.detailed)

end Load

theorem Linkable.of_same {place : State} (linkable : Linkable image table view bound record detail)
    (metaspace : place.metaspace = bound.metaspace) (metadata : place.metadata = bound.metadata)
    (objects : place.objects = bound.objects) : Linkable image table view place record detail :=
  { linkable with
    classes := metaspace ▸ linkable.classes
    metadata := metadata ▸ linkable.metadata
    objects := objects ▸ linkable.objects }

/-- It only matters which slots there were before, and what tables held once the class
was bound. -/
theorem Fulfils.of_same {start place : State}
    (fulfils : Fulfils image table view entry before bound count after)
    (slots : start.slots = before.slots) (metaspace : place.metaspace = bound.metaspace)
    (metadata : place.metadata = bound.metadata) (objects : place.objects = bound.objects) :
    Fulfils image table view entry start place count after := by
  have phases : ∀ codeId, start.phase? codeId = before.phase? codeId := fun codeId => by
    rw [State.phase?, State.phase?, slots]
  have rises : Rises start after = Rises before after := by
    funext codeId
    rw [Rises, Rises, phases]
  refine ⟨rises ▸ fulfils.counted, fun codeId record found => ?_, rises ▸ fulfils.own, ?_⟩
  · obtain ⟨detail, detailed, linked, equipped⟩ := fulfils.linked codeId record found
    rw [rises, phases]
    refine ⟨detail, detailed, linked.trans (and_congr_right fun _ => ?_), equipped⟩
    exact ⟨fun linkable => linkable.of_same metaspace metadata objects,
      fun linkable => linkable.of_same metaspace.symm metadata.symm objects.symm⟩
  · intro codeId still
    rw [rises] at still
    rw [fulfils.others codeId still, State.slot?, State.slot?, slots]

/-! ## Loading again -/

/-- Routines do not stand in the way of linking. -/
structure RoutinesLink (image : Image) (table : Engine.Table) (state : State) : Prop where
  enabled : state.linkageDisabled = false
  linked : state.routines.isSome = true ∨ Provides image table

theorem RoutinesLink.ensured {cell : Cell} (routines : RoutinesLink image table cell.state) :
    ∃ later, (ensureRoutines image).finish table cell = (true, later) ∧
      cell.state.Routed later.state ∧ later.state.linkageDisabled = false ∧
        later.state.routines.isSome = true := by
  have went : ((ensureRoutines image).finish table cell).1 = true := by
    rcases routines.linked with linked | provides
    · rw [ensureRoutines_linked table linked]
    · exact ensureRoutines_provided provides cell
  obtain ⟨routed, disabled, linked⟩ := ensureRoutines_concludes
    (Dialogue.Concludes.of_table (S := Engine.signature) table (ensureRoutines image cell))
  have ended : (ensureRoutines image cell).conclude table =
      (ensureRoutines image).finish table cell := rfl
  rw [ended] at routed disabled linked
  generalize (ensureRoutines image).finish table cell = outcome at *
  obtain ⟨result, later⟩ := outcome
  obtain rfl : result = true := went
  exact ⟨later, rfl, routed, disabled.trans routines.enabled, linked rfl⟩

/-- A class that is bound is resolved at a glance. -/
theorem resolveClass_bound {cell : Cell}
    (bound : boundEntry image cell.state view.klass = some entry) :
    (resolveClass image view).finish table cell = (.ok entry, cell) := by
  rw [resolveClass, Operation.finish_bind, Operation.finish_look]
  simp only [bound]
  rfl

/-- Before an engine that does not call back, a load of a class that passes the gate links
what can be linked, and loading the class again at once changes nothing. -/
theorem loadClass_fulfils (ordered : image.Ordered) {cell place : Cell}
    (orderly : cell.state.Orderly) (named : Named image cell.state)
    (sized : cell.state.metadata.size = image.library.header.metadataSize.toNat)
    (resolved : (resolveClass image view).finish table cell = (.ok entry, place))
    (routines : RoutinesLink image table cell.state) :
    let first := (loadClass image view).finish table cell
    let second := (loadClass image view).finish table first.2
    ∃ count, first.1 = .ok count ∧
      Fulfils image table view entry cell.state place.state count first.2.state ∧
      second.1 = .ok 0 ∧ second.2.state = first.2.state := by
  intro first second
  have passed : (.ok entry, place.state) = admitted image view cell.state := by
    have yields := resolveClass_yields table image view cell
    rwa [resolved] at yields
  have frame := admitted_frame image view cell.state
  have filled := admitted_seated ordered.labelled view cell.state
  rw [← passed] at frame filled
  dsimp only at frame filled
  have slots : place.state.slots = cell.state.slots := by rw [frame]
  have metadata : place.state.metadata = cell.state.metadata := by rw [frame]
  have objects : place.state.objects = cell.state.objects := by rw [frame]
  have bound : RoutinesLink image table place.state :=
    ⟨by rw [frame]; exact routines.enabled, by rw [frame]; exact routines.linked⟩
  obtain ⟨later, ensured, routed, enabled, linked⟩ := bound.ensured
  have namedLater : Named image later.state := by
    have seated : Named image place.state := by
      refine named.replace metadata objects fun index klass held => ?_
      exact (filled.source index klass held).imp_right fun ⟨known, _⟩ => ⟨view.name, known, trivial⟩
    refine seated.of_same ?_ ?_ ?_ <;> rw [routed]
  have orderlyLater : later.state.Orderly := orderly.of_slots (by rw [routed]; exact slots)
  have sizedLater : later.state.metadata.size = image.library.header.metadataSize.toNat := by
    rw [routed]
    exact metadata.symm ▸ sized
  have own : ∀ record ∈ methods image entry, OwnSlot image entry (slotNumber record) :=
    fun record member => ⟨record, member, rfl⟩
  obtain ⟨loads, raised, inert⟩ :=
    publishMethods_yields ordered.labelled table entry view own later
  have whole : first = _ := loadClass_finish table view routines.enabled
  rw [resolved] at whole
  obtain ⟨result, final⟩ := finishLoad_linked view entry ensured
  rw [← whole] at result final
  rw [← final] at loads raised inert
  have present := admitted_known passed.symm
  have fulfils := loads.fulfils ordered orderlyLater present namedLater sizedLater raised
  refine ⟨_, result, fulfils.of_same ?_ ?_ ?_ ?_, ?_⟩
  · rw [routed]
    exact slots.symm
  · rw [routed]
  · rw [routed]
  · rw [routed]
  -- The class is still bound and its routines are linked, so that nothing is left but to
  -- try its methods once more.
  have known : boundEntry image first.2.state view.klass = some entry := by
    have same : boundEntry image first.2.state view.klass =
        boundEntry image place.state view.klass := by
      rw [loads.frame, routed]
      rfl
    exact same.trans (admitted_bound passed.symm)
  have stays : first.2.state.linkageDisabled = false := by
    rw [loads.frame]
    exact enabled
  have still : first.2.state.routines.isSome = true := by
    rw [loads.frame]
    exact linked
  have again : second = _ := loadClass_finish table view stays
  rw [resolveClass_bound known] at again
  obtain ⟨report, last⟩ := finishLoad_linked view entry (ensureRoutines_linked table still)
  rw [← again] at report last
  have unchanged := inert first.2.state (.refl _) first.2 rfl
  obtain ⟨-, none, -⟩ := publishMethods_yields ordered.labelled table entry view own first.2
  rw [unchanged] at none
  exact ⟨report.trans (congrArg _ none.zero), last.trans unchanged⟩

/-! ## Built blobs -/

section Built

variable {edits : List Edit} {settings : BuildSettings} {engineVersion name : String} {id : Nat}
  {options : LoadOptions} {loading journal : Journal} {library : Library}
  (known : Edits.Known edits) (fits : (Draft.describe settings engineVersion edits).Fits)
  (loaded : ((Library.load (Draft.describe settings engineVersion edits).assemble name id
    options).run loading).1 = .ok library)
  (created : ((Heap.create library).run journal).1 = .ok heap)
include known fits loaded created

/-- The code of a built blob is found and has its place. -/
theorem built_ordered : heap.image.Ordered := by
  have labelled := built_labelled known fits loaded created
  have registered := built_registered known fits loaded created
  have slots (codeId localIndex : Nat) (descriptor : String) (index : Nat) :
      metadataSlot heap.image codeId localIndex = .ok (descriptor, index) ↔ _ :=
    built_slots known fits loaded created
  obtain ⟨assembled, stubs, prepared, -⟩ := built_prepared known fits.addressable loaded created
  have sized := prepare_segments prepared
  rw [assembled.settings] at sized
  obtain ⟨-, sound, -⟩ := prepare_claims prepared
  rw [Edits.describe_eq known] at fits slots
  refine ⟨labelled, registered, fun codeId record classId found => ?_, fun codeId owned found => ?_⟩
  · obtain ⟨claimed, slot⟩ := sound codeId _ found
    refine ⟨natural_unsigned (slotOf_ok.mp slot).1, fun entry present => ?_⟩
    obtain rfl := classEntry_number present
    cases claimed with
    | method inside read listed among =>
      have same := Except.ok.inj (read.symm.trans (classEntry_read present).2)
      exact mem_methods.mpr ⟨_, same ▸ listed, among⟩
  · obtain ⟨code, added, same⟩ := Draft.record_read assembled fits prepared found
    have count : (Draft.detailIn (Edits.summary settings engineVersion edits).pool code).metadataNames.length =
        code.method.metadata.length := by simp [Draft.detailIn]
    rw [same]
    refine ⟨_, _, Draft.detailOf_read assembled fits added, Draft.metadataStart_read fits added,
      ?_, fun localIndex inside other otherIndex descriptor there => ?_, fun entered => ?_⟩
    · rw [count, Draft.metadataSize_eq assembled fits]
      exact Draft.metadata_room added
    · obtain ⟨rival, text, among, listed, -, place⟩ := (slots other otherIndex _ _).mp there
      have within := (List.getElem?_eq_some_iff.mp listed).1
      obtain ⟨rfl, rfl⟩ := Draft.metadataFrom_unique added (count ▸ inside) among within place
      exact ⟨rfl, rfl⟩
    · exact ⟨_, Draft.geometry_read assembled fits (Draft.power_of_hasSegmentSize sized) rfl added
        entered⟩

/-- In the heap of a built blob, in whatever course, before an engine whose answers stand in
a table: if a live class passes the gate and routines can be linked, loading the class
makes exactly those of its slots executable that are unresolved and whose code can be
linked, fills what their code refers to and reports their number. Loading the class again
at once reports nothing and changes nothing. -/
theorem load_links_linkable {admits : (service heap.image).Course → Task → Prop}
    {course : (service heap.image).Course} (reached : Reaches heap admits course) {place : Cell}
    (resolved : (resolveClass heap.image view).finish table course.state = (.ok entry, place))
    (routines : RoutinesLink heap.image table course.state.state) :
    let first := (loadClass heap.image view).finish table course.state
    let second := (loadClass heap.image view).finish table first.2
    ∃ count, first.1 = .ok count ∧
      Fulfils heap.image table view entry course.state.state place.state count first.2.state ∧
      second.1 = .ok 0 ∧ second.2.state = first.2.state := by
  have ordered := built_ordered known fits loaded created
  have intact := reached.intact created
  have named : Named heap.image course.state.state :=
    (reached.recorded ordered.labelled (created_null created)).mono
      (fun _ _ _ => trivial) (fun _ _ _ => trivial) fun _ _ _ => trivial
  have sized : course.state.state.metadata.size = heap.image.library.header.metadataSize.toNat :=
    intact.sized.metadata.trans List.length_replicate
  exact loadClass_fulfils ordered intact.orderly named sized resolved routines

end Built

/-! ## A class with a method that cannot be linked -/

/-- A class with three methods, of which the second one refers to a class that is
nowhere. -/
def mixed : List Edit :=
  [.addClass "A" 7, .addMetaspaceSlot "B", .addMetaspaceSlot "Z",
   .addMethod 0 { name := "m", signature := "()V", classRefs := [1] },
   .addMethod 0 { name := "n", signature := "()V", classRefs := [1, 2] },
   .addMethod 0 { name := "o", signature := "()V", classRefs := [0] }]

set_option maxRecDepth 1000000 in
theorem mixed_linked : (built? mixed).any (fun built =>
    let cell : Cell := { state := built.2.state }
    let first := (loadClass built.2.image rivalA).finish plainTable cell
    (((resolveClass built.2.image rivalA).finish plainTable cell).1 matches .ok _) &&
      first.1 == .ok 2 && built.2.image.library.routines == .ok [] &&
      !built.2.state.linkageDisabled && first.2.state.phase? 1 == some .unresolved) = true := by
  decide +kernel

/-- Two of three methods are linked. The other one is not, whatever it leaves behind. -/
theorem load_links_linkable_mixed : ∃ (library : Library) (heap : Heap)
    (course : (service heap.image).Course) (entry : ClassEntry) (place : Cell),
    ((Library.load (Draft.describe {} "1" mixed).assemble "lib" 0
      { verifyChecksum := false }).run []).1 = .ok library ∧
    ((Heap.create library).run []).1 = .ok heap ∧ Reaches heap (fun _ _ => True) course ∧
    (resolveClass heap.image rivalA).finish plainTable course.state = (.ok entry, place) ∧
    RoutinesLink heap.image plainTable course.state.state ∧
    let first := (loadClass heap.image rivalA).finish plainTable course.state
    let second := (loadClass heap.image rivalA).finish plainTable first.2
    first.1 = .ok 2 ∧
      Fulfils heap.image plainTable rivalA entry course.state.state place.state 2 first.2.state ∧
      first.2.state.phase? 1 = some .unresolved ∧
      second.1 = .ok 0 ∧ second.2.state = first.2.state := by
  obtain ⟨⟨library, heap⟩, built, linked⟩ := (Option.any_eq_true _ _).mp mixed_linked
  obtain ⟨loaded, created⟩ := built_some built
  simp only [Bool.and_eq_true, beq_iff_eq, Bool.not_eq_eq_eq_not, Bool.not_true] at linked
  obtain ⟨⟨⟨⟨passed, two⟩, bare⟩, enabled⟩, unresolved⟩ := linked
  have known : Edits.Known mixed := by decide
  have fits : (Draft.describe {} "1" mixed).Fits := Draft.fits_of_length (by decide +kernel)
  have reached : Reaches heap (fun _ _ => True) { state := { state := heap.state } } :=
    ⟨{}, [], .refl⟩
  have routines : RoutinesLink heap.image plainTable heap.state :=
    ⟨enabled, .inr ⟨[], bare, fun _ impossible => (List.not_mem_nil impossible).elim⟩⟩
  rcases resolved : (resolveClass heap.image rivalA).finish plainTable { state := heap.state }
    with ⟨miss | entry, place⟩
  · rw [resolved] at passed
    cases passed
  obtain ⟨count, result, fulfils, again, still⟩ :=
    load_links_linkable known fits loaded created reached resolved routines
  obtain rfl := Except.ok.inj (result.symm.trans two)
  exact ⟨library, heap, _, entry, place, loaded, created, reached, resolved, routines, two, fulfils,
    unresolved, again, still⟩

end Precompiled.Heap
