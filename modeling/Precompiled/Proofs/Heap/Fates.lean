import Precompiled.Proofs.Heap.Parts
import Precompiled.Proofs.Heap.Viewpoints

/-! What becomes of slots and tables when classes are loaded. A class of another shape
takes code out of use that may have been published already, and a class that passes the
gate puts its code into slots that are free. Either is said without regard to what was
loaded before: everything that was swept is out of use, and of the rest everything that
some class offers code for is resolved with it. -/
namespace Precompiled.Heap

open Blob

variable {image : Image} {table : Engine.Table} {loader : LoaderId} {view other : ClassView}
  {start before after state : State} {codeId : Nat} {code : LinkedCode} {entry : ClassEntry}
  {done : List ClassView}

/-! ## What a class does to slots -/

/-- A class of another shape than the blob knows takes a slot out of use. -/
def Sweeps (image : Image) (view : ClassView) (codeId : Nat) : Prop :=
  ∃ entry, lookupClass image view.name = .ok (some entry) ∧ ¬Matches image entry view ∧
    (codeId ∈ dependentsOf image entry ∨ codeId ∈ image.codesOf entry.classId)

/-- A class that passes the gate has code for a slot. -/
def Offers (image : Image) (table : Engine.Table) (view : ClassView) (codeId : Nat)
    (code : LinkedCode) : Prop :=
  ∃ entry record, Matches image entry view ∧ record ∈ methods image entry ∧
    slotNumber record = codeId ∧ Links image table entry view (Resolvable image table view) record code

/-- Every class has a metaspace slot inside the table. -/
def Image.Housed (image : Image) : Prop :=
  ∀ entry, image.classEntry? entry.classId = some entry → ∃ index,
    natural? entry.record.gotIndex = some index ∧
      index < image.library.header.metaspaceSize.toNat

/-- What an image has to be like for classes to be told apart. -/
structure Image.Regular (image : Image) : Prop where
  labelled : image.Labelled
  registered : image.Registered
  housed : image.Housed

theorem Matches.unique {found : ClassEntry} (fits : Matches image entry view)
    (lookup : lookupClass image view.name = .ok (some found)) : found = entry :=
  Option.some.inj (Except.ok.inj (lookup.symm.trans fits.found))

theorem assigned_of_codesOf {classId : Nat} (member : codeId ∈ image.codesOf classId) :
    image.Assigns codeId classId := by
  obtain ⟨⟨owned, number⟩, listed, selected⟩ := List.mem_filterMap.mp member
  simp only [Option.ite_none_right_eq_some, Option.some.injEq] at selected
  obtain ⟨own, rfl⟩ := selected
  obtain ⟨record, rfl, same⟩ := (Option.any_eq_true _ _).mp own
  have found : image.records[number]? = some (some record) := List.mem_zipIdx_iff_getElem?.mp listed
  exact ⟨record, Option.join_eq_some_iff.mpr found, of_decide_eq_true same⟩

namespace Image.Regular

/-- Two names that lead to one class are one name. -/
theorem name_unique {found : ClassEntry} (regular : image.Regular)
    (first : lookupClass image view.name = .ok (some entry))
    (second : lookupClass image other.name = .ok (some found))
    (same : entry.classId = found.classId) : view.name = other.name := by
  have known := lookupClass_known first
  obtain rfl : entry = found := by
    rw [same] at known
    exact Option.some.inj (known.symm.trans (lookupClass_known second))
  obtain ⟨index, slot, -⟩ := regular.housed entry known
  exact Except.ok.inj ((regular.labelled.classes _ entry index first slot).symm.trans
    (regular.labelled.classes _ entry index second slot))

/-- A slot that a class offers code for is its own. -/
theorem offered (regular : image.Regular) (offers : Offers image table view codeId code) :
    ∃ entry, Matches image entry view ∧ ∃ record,
      Links image table entry view (Resolvable image table view) record code ∧
        image.record? codeId = some ⟨record, some entry.classId⟩ := by
  obtain ⟨entry, record, fits, member, rfl, links⟩ := offers
  exact ⟨entry, fits, record, links,
    regular.registered entry record (lookupClass_known fits.found) member⟩

/-- A slot is published into by classes of one name only. -/
theorem slot_name {rival : ClassEntry} (regular : image.Regular)
    (first : Matches image entry view) (own : OwnSlot image entry codeId)
    (second : Matches image rival other) (others : OwnSlot image rival codeId) :
    view.name = other.name := by
  obtain ⟨record, member, rfl⟩ := own
  obtain ⟨claimant, listed, number⟩ := others
  have mine := regular.registered entry record (lookupClass_known first.found) member
  have there := regular.registered rival claimant (lookupClass_known second.found) listed
  rw [number] at there
  have same := Option.some.inj (mine.symm.trans there)
  exact regular.name_unique first.found second.found
    (Option.some.inj (congrArg OwnedRecord.classId same))

/-- Code for a slot is offered by classes of one name only. -/
theorem offer_name {rival : LinkedCode} (regular : image.Regular)
    (first : Offers image table view codeId code) (second : Offers image table other codeId rival) :
    view.name = other.name := by
  obtain ⟨entry, record, fits, member, number, -⟩ := first
  obtain ⟨found, claimant, matched, listed, same, -⟩ := second
  exact regular.slot_name fits ⟨record, member, number⟩ matched ⟨claimant, listed, same⟩

/-- A class offers no two pieces of code for a slot. -/
theorem offer_unique {rival : LinkedCode} (regular : image.Regular)
    (first : Offers image table view codeId code) (second : Offers image table view codeId rival) :
    code = rival := by
  obtain ⟨entry, fits, record, links, found⟩ := regular.offered first
  obtain ⟨rivalEntry, matched, rivalRecord, others, there⟩ := regular.offered second
  obtain rfl := fits.unique matched.found
  obtain rfl : record = rivalRecord :=
    congrArg OwnedRecord.record (Option.some.inj (found.symm.trans there))
  exact links.unique others

/-- Code for a slot of a class is offered by classes of its name only. -/
theorem offer_own (regular : image.Regular) (offers : Offers image table view codeId code)
    (found : lookupClass image other.name = .ok (some entry))
    (own : codeId ∈ image.codesOf entry.classId) : view.name = other.name := by
  obtain ⟨offered, fits, record, -, there⟩ := regular.offered offers
  obtain ⟨owned, present, owner⟩ := assigned_of_codesOf own
  obtain rfl := Option.some.inj (present.symm.trans there)
  exact regular.name_unique fits.found found (Option.some.inj owner)

end Image.Regular

/-! ## Taking a place that is free -/

/-- Binding a loader that nobody contests. -/
theorem bindLoader_free {classId : Nat} (inside : classId < state.loaders.length)
    (free : ∀ current, state.loader? classId = some current → current = loader) :
    (state.bindLoader classId loader).1 = true ∧
      ∀ other, (state.bindLoader classId loader).2.loader? other =
        if other = classId then some loader else state.loader? other := by
  unfold State.bindLoader
  cases bound : state.loader? classId with
  | some current =>
    obtain rfl := free current bound
    refine ⟨by simp, fun other => ?_⟩
    by_cases here : other = classId
    · rw [if_pos here, here]
      exact bound
    · rw [if_neg here]
  | none =>
    refine ⟨rfl, fun other => ?_⟩
    by_cases here : other = classId
    · subst here
      simp [State.loader?, List.getElem?_set_self inside]
    · simp [State.loader?, List.getElem?_set_ne (Ne.symm here), here]

/-- A place that is free, or the class's own, is taken. -/
theorem claimPlace_free {index : Nat} (slot : natural? entry.record.gotIndex = some index)
    (inside : index < state.metaspace.size) (number : entry.classId < state.loaders.length)
    (vacant : ∀ klass, state.metaspace.get index = some klass → klass = view.klass)
    (free : ∀ current, state.loader? entry.classId = some current → current = view.loader) :
    (claimPlace entry view state).1 = true ∧ state.Reseated (claimPlace entry view state).2 ∧
      (claimPlace entry view state).2.loaders.length = state.loaders.length ∧
      ∀ other, (claimPlace entry view state).2.loader? other =
        if other = entry.classId then some view.loader else state.loader? other := by
  obtain ⟨bound, loaders⟩ := bindLoader_free number free
  obtain ⟨metaspace, -, count⟩ := bindLoader_frame entry.classId view.loader state
  have frame := bindLoader_reseated entry.classId view.loader state
  have unclaimed : ((state.metaspace.get index).any (· ≠ view.klass)) = false := by
    rw [Option.any_eq_false]
    intro klass held
    simp [vacant klass held]
  unfold claimPlace
  simp only [slot, unclaimed, Bool.false_eq_true, if_false, bound, Bool.not_true]
  refine ⟨?_, ?_, count, loaders⟩
  · rw [metaspace]
    cases held : state.metaspace.get index with
    | none => rw [Got.setIfNull_stored view.klass held inside, beq_self_eq_true]
    | some klass =>
      obtain rfl := vacant klass held
      simp [Got.setIfNull, Option.join_eq_some_iff.mp held]
  · rw [State.Reseated, frame]

/-! ## What is left behind -/

/-- Tables have their sizes and hold nothing but answers: metadata slots those to the
classes of a list that were loaded. -/
structure Stocked (image : Image) (table : Engine.Table) (loader : LoaderId)
    (done : List ClassView) (state : State) : Prop where
  loaderCount : state.loaders.length = image.classCount
  metaspaceSize : state.metaspace.size = image.library.header.metaspaceSize.toNat
  metadataSize : state.metadata.size = image.library.header.metadataSize.toNat
  objectSize : state.objects.size = image.library.header.objectSize.toNat
  metaspace : ∀ index klass, state.metaspace.get index = some klass →
    Sees image table loader index klass
  metadata : ∀ index value, state.metadata.get index = some value →
    ∃ view ∈ done, ∃ entry codeId localIndex descriptor, Matches image entry view ∧
      OwnSlot image entry codeId ∧
      metadataSlot image codeId localIndex = .ok (descriptor, index) ∧
      table (.resolveMetadata descriptor view) = some value
  objects : ∀ index object, state.objects.get index = some object →
    ∃ descriptor, image.library.objectName index = .ok descriptor ∧
      table (.resolveObject descriptor) = some object

/-- What becomes of a slot by the loads of the classes of a list. -/
inductive Fate (image : Image) (table : Engine.Table) (start : State) (done : List ClassView)
    (codeId : Nat) : Option (Slot.Phase × Option LinkedCode) → Prop where
  /-- The slot was not free, or is none. -/
  | taken (taken : start.slot? codeId ≠ some (.unresolved, none)) :
    Fate image table start done codeId (start.slot? codeId)
  | swept {handle : Option LinkedCode} (free : start.slot? codeId = some (.unresolved, none))
    (swept : ∃ view ∈ done, Sweeps image view codeId) :
    Fate image table start done codeId (some (.invalidated, handle))
  | linked {code : LinkedCode} (free : start.slot? codeId = some (.unresolved, none))
    (spared : ∀ view ∈ done, ¬Sweeps image view codeId)
    (offered : ∃ view ∈ done, Offers image table view codeId code) :
    Fate image table start done codeId (some (.resolved, some code))
  | idle (free : start.slot? codeId = some (.unresolved, none))
    (spared : ∀ view ∈ done, ¬Sweeps image view codeId)
    (lacking : ∀ view ∈ done, ∀ code, ¬Offers image table view codeId code) :
    Fate image table start done codeId (some (.unresolved, none))

/-! ## Slots -/

section Fates

variable {slot : Option (Slot.Phase × Option LinkedCode)}

/-- A class that neither sweeps a slot nor has code for it does not matter. -/
theorem Fate.neutral (fate : Fate image table start done codeId slot)
    (spares : ¬Sweeps image view codeId) (lacks : ∀ code, ¬Offers image table view codeId code) :
    Fate image table start (view :: done) codeId slot := by
  cases fate with
  | taken taken => exact .taken taken
  | swept free swept =>
    obtain ⟨other, member, sweeps⟩ := swept
    exact .swept free ⟨other, List.mem_cons_of_mem _ member, sweeps⟩
  | linked free spared offered =>
    obtain ⟨other, member, offers⟩ := offered
    exact .linked free (List.forall_mem_cons.mpr ⟨spares, spared⟩)
      ⟨other, List.mem_cons_of_mem _ member, offers⟩
  | idle free spared lacking =>
    exact .idle free (List.forall_mem_cons.mpr ⟨spares, spared⟩)
      (List.forall_mem_cons.mpr ⟨lacks, lacking⟩)

/-- What two lists of the same classes make of a slot. -/
theorem Fate.same {rest : List ClassView} {last : Option (Slot.Phase × Option LinkedCode)}
    (regular : image.Regular) (apart : ∀ view ∈ done, ∀ other ∈ done, view.name = other.name →
      view = other) (same : ∀ view, view ∈ done ↔ view ∈ rest)
    (first : Fate image table start done codeId slot)
    (second : Fate image table start rest codeId last) :
    slot.map Prod.fst = last.map Prod.fst ∧
      (slot.map Prod.fst = some .resolved → slot = last) := by
  cases first with
  | taken taken =>
    cases second with
    | taken => exact ⟨rfl, fun _ => rfl⟩
    | swept free => exact absurd free taken
    | linked free => exact absurd free taken
    | idle free => exact absurd free taken
  | swept free swept =>
    obtain ⟨view, member, sweeps⟩ := swept
    cases second with
    | taken taken => exact absurd free taken
    | swept => exact ⟨rfl, nofun⟩
    | linked _ spared => exact absurd sweeps (spared view ((same view).mp member))
    | idle _ spared => exact absurd sweeps (spared view ((same view).mp member))
  | linked free spared offered =>
    obtain ⟨view, member, offers⟩ := offered
    cases second with
    | taken taken => exact absurd free taken
    | swept _ swept =>
      obtain ⟨other, among, sweeps⟩ := swept
      exact absurd sweeps (spared other ((same other).mpr among))
    | linked _ _ others =>
      obtain ⟨other, among, rival⟩ := others
      obtain rfl := apart view member other ((same other).mpr among) (regular.offer_name offers rival)
      obtain rfl := regular.offer_unique offers rival
      exact ⟨rfl, fun _ => rfl⟩
    | idle _ _ lacking => exact absurd offers (lacking view ((same view).mp member) _)
  | idle free spared lacking =>
    cases second with
    | taken taken => exact absurd free taken
    | swept _ swept =>
      obtain ⟨other, among, sweeps⟩ := swept
      exact absurd sweeps (spared other ((same other).mpr among))
    | linked _ _ others =>
      obtain ⟨other, among, rival⟩ := others
      exact absurd rival (lacking other ((same other).mpr among) _)
    | idle => exact ⟨rfl, nofun⟩

/-- A slot that was not free holds a stub, or is none. -/
theorem stub_of_taken (pristine : start.Pristine) {phase : Slot.Phase} {handle : Option LinkedCode}
    (taken : start.slot? codeId ≠ some (.unresolved, none))
    (seen : start.slot? codeId = some (phase, handle)) :
    phase = .resolved ∧ handle.any LinkedCode.isStub = true := by
  obtain ⟨slot, found, rfl, rfl⟩ := slot?_eq_some.mp seen
  have settled := pristine codeId slot found
  cases held : slot.handle with
  | none => simp [seen, held, settled.free held] at taken
  | some stub =>
    obtain ⟨resolved, isStub, -⟩ := settled.stub stub held
    exact ⟨resolved, by simpa using isStub⟩

/-- A class of another shape takes its dependents and its own code out of use. -/
theorem Fate.sweep (regular : image.Regular) (pristine : start.Pristine)
    (fresh : ∀ other ∈ done, other.name ≠ view.name)
    (found : lookupClass image view.name = .ok (some entry)) (refused : ¬Matches image entry view)
    (fate : Fate image table start done codeId (before.slot? codeId))
    (outcast : Outcast image entry before after) :
    Fate image table start (view :: done) codeId (after.slot? codeId) := by
  have lacks : ∀ code, ¬Offers image table view codeId code := by
    rintro code ⟨other, record, fits, -⟩
    obtain rfl := fits.unique found
    exact refused fits
  rw [outcast.slots]
  generalize before.slot? codeId = slot at fate
  by_cases involved : codeId ∈ dependentsOf image entry ∨ codeId ∈ image.codesOf entry.classId
  swap
  · have spares : ¬Sweeps image view codeId := by
      rintro ⟨other, lookup, -, either⟩
      obtain rfl := Option.some.inj (Except.ok.inj (lookup.symm.trans found))
      exact involved either
    have same : slot.map (castOut image entry codeId) = slot := by
      cases slot <;> simp [castOut_apart involved]
    rw [same]
    exact fate.neutral spares lacks
  have sweeps : Sweeps image view codeId := ⟨entry, found, refused, involved⟩
  have swept : ∃ other ∈ view :: done, Sweeps image other codeId := ⟨view, List.mem_cons_self, sweeps⟩
  cases fate with
  | taken taken =>
    have same : (start.slot? codeId).map (castOut image entry codeId) = start.slot? codeId := by
      cases seen : start.slot? codeId with
      | none => rfl
      | some slot =>
        obtain ⟨phase, handle⟩ := slot
        obtain ⟨rfl, isStub⟩ := stub_of_taken pristine taken seen
        rw [Option.map_some, castOut_stub isStub]
    rw [same]
    exact .taken taken
  | swept free =>
    rw [Option.map_some, castOut_invalidated]
    exact .swept free swept
  | linked free spared offered =>
    obtain ⟨other, member, offers⟩ := offered
    have own : codeId ∉ image.codesOf entry.classId := fun own =>
      fresh other member (regular.offer_own offers found own)
    obtain ⟨_, _, -, -, -, links⟩ := offers
    rw [Option.map_some, castOut_method links.method (involved.resolve_right own)]
    exact .swept free swept
  | idle free =>
    rw [Option.map_some, castOut_free involved]
    exact .swept free swept

/-- A class that passes the gate puts its code into slots that are free. -/
theorem Fate.link (fits : Matches image entry view) (agrees : Agrees image table view (OwnSlot image entry) before)
    (loads : Loads image table entry view (OwnSlot image entry) (methods image entry) before after)
    (fate : Fate image table start done codeId (before.slot? codeId)) :
    Fate image table start (view :: done) codeId (after.slot? codeId) := by
  have spares : ¬Sweeps image view codeId := by
    rintro ⟨other, found, refused, -⟩
    obtain rfl := fits.unique found
    exact refused fits
  have kept : ∀ slot, before.slot? codeId = slot → slot ≠ some (.unresolved, none) →
      after.slot? codeId = slot := by
    rintro slot rfl occupied
    exact (loads.slots codeId).resolve_right fun published => occupied published.1
  have offers : ∀ record ∈ methods image entry, slotNumber record = codeId → ∀ code,
      Links image table entry view (Resolvable image table view) record code →
        Offers image table view codeId code :=
    fun record member number code links => ⟨entry, record, fits, member, number, links⟩
  generalize seen : before.slot? codeId = slot at fate
  cases fate with
  | taken taken =>
    rw [kept _ seen taken]
    exact .taken taken
  | swept free swept =>
    obtain ⟨other, member, sweeps⟩ := swept
    rw [kept _ seen nofun]
    exact .swept free ⟨other, List.mem_cons_of_mem _ member, sweeps⟩
  | linked free spared offered =>
    obtain ⟨other, member, offers⟩ := offered
    rw [kept _ seen nofun]
    exact .linked free (List.forall_mem_cons.mpr ⟨spares, spared⟩)
      ⟨other, List.mem_cons_of_mem _ member, offers⟩
  | idle free spared lacking =>
    have spared : ∀ other ∈ view :: done, ¬Sweeps image other codeId :=
      List.forall_mem_cons.mpr ⟨spares, spared⟩
    have same : ∀ record ∈ methods image entry, ∀ detail,
        Resolves image table view before (slotNumber record) detail ↔
          Resolvable image table view (slotNumber record) detail :=
      fun record member => agrees.resolves ⟨record, member, rfl⟩
    rcases loads.decided before (.refl _) codeId seen with
      ⟨still, never⟩ | ⟨record, member, number, code, links, stored⟩
    · rw [still]
      refine .idle free spared (List.forall_mem_cons.mpr ⟨?_, lacking⟩)
      rintro code ⟨found, record, matched, member, number, links⟩
      obtain rfl := fits.unique matched.found
      exact never record member number code (links.mono fun detail => (same record member detail).mpr)
    · rw [stored]
      exact .linked free spared ⟨view, List.mem_cons_self, offers record member number code
        (links.mono fun detail => (same record member detail).mp)⟩

end Fates

/-! ## Tables -/

theorem Stocked.agrees (regular : image.Regular) (stocked : Stocked image table view.loader done state)
    (fresh : ∀ other ∈ done, other.name ≠ view.name) (fits : Matches image entry view) :
    Agrees image table view (OwnSlot image entry) state where
  metaspaceSize := stocked.metaspaceSize
  metadataSize := stocked.metadataSize
  objectSize := stocked.objectSize
  metaspace name index klass named held := by
    obtain ⟨other, called, told⟩ := stocked.metaspace index klass held
    obtain rfl := Except.ok.inj (named.symm.trans called)
    exact told
  metadata codeId localIndex descriptor index value own named held := by
    obtain ⟨other, member, found, rival, otherIndex, text, matched, others, called, -⟩ :=
      stocked.metadata index value held
    obtain ⟨rfl, -⟩ := regular.labelled.metadata _ _ _ _ _ _ _ called named
    exact absurd (regular.slot_name matched others fits own) (fresh other member)
  objects descriptor index object named held := by
    obtain ⟨other, called, told⟩ := stocked.objects index object held
    obtain rfl := Except.ok.inj (named.symm.trans called)
    exact told

theorem Stocked.cons (stocked : Stocked image table loader done state) (view : ClassView) :
    Stocked image table loader (view :: done) state where
  loaderCount := stocked.loaderCount
  metaspaceSize := stocked.metaspaceSize
  metadataSize := stocked.metadataSize
  objectSize := stocked.objectSize
  metaspace := stocked.metaspace
  metadata index value held := by
    obtain ⟨other, member, rest⟩ := stocked.metadata index value held
    exact ⟨other, List.mem_cons_of_mem _ member, rest⟩
  objects := stocked.objects

theorem Stocked.fed (stocked : Stocked image table view.loader done before)
    (fits : Matches image entry view) (fed : Fed image table view (OwnSlot image entry) before after)
    (loaders : after.loaders = before.loaders) :
    Stocked image table view.loader (view :: done) after where
  loaderCount := loaders ▸ stocked.loaderCount
  metaspaceSize := fed.metaspace.size.trans stocked.metaspaceSize
  metadataSize := fed.metadata.size.trans stocked.metadataSize
  objectSize := fed.objects.size.trans stocked.objectSize
  metaspace index klass held := by
    rcases fed.metaspace.source index klass held with earlier | told
    · exact stocked.metaspace index klass earlier
    · exact told
  metadata index value held := by
    rcases fed.metadata.source index value held with
      earlier | ⟨codeId, localIndex, descriptor, own, named, told⟩
    · exact (stocked.cons view).metadata index value earlier
    · exact ⟨view, List.mem_cons_self, entry, codeId, localIndex, descriptor, fits, own, named, told⟩
  objects index object held := by
    rcases fed.objects.source index object held with earlier | told
    · exact stocked.objects index object earlier
    · exact told

/-- A class took its place. -/
theorem Stocked.seated (stocked : Stocked image table loader done before)
    (count : after.loaders.length = before.loaders.length)
    (filled : Got.Filled (Sees image table loader) before.metaspace after.metaspace)
    (metadata : after.metadata = before.metadata) (objects : after.objects = before.objects) :
    Stocked image table loader done after where
  loaderCount := count.trans stocked.loaderCount
  metaspaceSize := filled.size.trans stocked.metaspaceSize
  metadataSize := metadata ▸ stocked.metadataSize
  objectSize := objects ▸ stocked.objectSize
  metaspace index klass held := (filled.source index klass held).elim (stocked.metaspace index klass) id
  metadata := metadata ▸ stocked.metadata
  objects := objects ▸ stocked.objects

end Precompiled.Heap
