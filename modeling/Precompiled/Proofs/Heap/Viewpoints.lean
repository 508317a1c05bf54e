import Precompiled.Proofs.Heap.Verdicts

/-! How the loaders of different classes see one reference. A metaspace slot is shared
by all classes of a library and keeps the class that it was first filled with. What it
holds is a class of its name as the loader of some class sees it that was loaded, but
a class that is linked later is not asked how its own loader sees the name. -/
namespace Precompiled.Heap

open Blob

variable {image : Image} {table : Engine.Table} {view live : ClassView}
  {before middle after : State} {codeId index : Nat} {klass : ClassRef} {entry : ClassEntry}

/-! ## What loaders see -/

/-- A loader sees a class under the name of a metaspace slot. -/
def Sees (image : Image) (table : Engine.Table) (loader : LoaderId) (index : Nat)
    (klass : ClassRef) : Prop :=
  ∃ name, image.library.metaspaceName index = .ok name ∧
    table (.findClass name loader) = some klass

/-- The engine knows a live class by its name and its loader. -/
def Familiar (table : Engine.Table) (view : ClassView) : Prop :=
  table (.findClass view.name view.loader) = some view.klass

/-- Claiming a place fills the metaspace slot of the class with the live class, or
none. -/
theorem claimPlace_filled (entry : ClassEntry) (view : ClassView) (state : State) :
    Got.Filled (fun index klass => natural? entry.record.gotIndex = some index ∧ klass = view.klass)
      state.metaspace (claimPlace entry view state).2.metaspace := by
  have metaspace := (bindLoader_frame entry.classId view.loader state).1
  unfold claimPlace
  split
  · exact .refl _
  rename_i index slot
  split
  · exact .refl _
  dsimp only
  split
  · exact metaspace ▸ .refl _
  · rw [metaspace]
    exact Got.setIfNull_filled _ ⟨slot, rfl⟩

theorem admitted_slots (image : Image) (view : ClassView) (state : State) :
    (admitted image view state).2.slots = state.slots := by
  unfold admitted bound
  split
  · rfl
  split
  · rfl
  next entry judged =>
  have slots := claimPlace_slots entry view state
  generalize claimPlace entry view state = outcome at slots ⊢
  obtain ⟨claimed, later⟩ := outcome
  cases claimed <;> exact slots

/-- Resolving a live class fills no slot but with the class, and this one only under its
name. -/
theorem admitted_seated (labelled : image.Labelled) (view : ClassView) (state : State) :
    Got.Filled (fun (index : Nat) klass => image.library.metaspaceName index = .ok view.name ∧
        klass = view.klass) state.metaspace (admitted image view state).2.metaspace := by
  unfold admitted bound
  split
  · exact .refl _
  split
  · exact .refl _
  next entry judged =>
  have found := (judge_ok.mp judged).found
  have filled := (claimPlace_filled entry view state).mono fun index klass ⟨slot, same⟩ =>
    And.intro (labelled.classes view.name entry index found slot) same
  generalize claimPlace entry view state = outcome at filled ⊢
  obtain ⟨claimed, later⟩ := outcome
  cases claimed <;> exact filled

/-- Resolving a live class fills no slot but with the class as its loader sees it. -/
theorem admitted_filled (labelled : image.Labelled) (familiar : Familiar table view) (state : State) :
    Got.Filled (Sees image table view.loader) state.metaspace
      (admitted image view state).2.metaspace := by
  refine (admitted_seated labelled view state).mono ?_
  rintro index klass ⟨named, rfl⟩
  exact ⟨view.name, named, familiar⟩

/-- A class that is resolved is bound. -/
theorem admitted_bound (passed : admitted image view before = (.ok entry, after)) :
    boundEntry image after view.klass = some entry := by
  unfold admitted bound at passed
  split at passed
  next other there =>
    obtain ⟨same, rfl⟩ := Prod.mk.inj passed
    obtain rfl := Except.ok.inj same
    exact there
  split at passed
  · cases (Prod.mk.inj passed).1
  next other judged =>
  generalize claimPlace other view before = outcome at passed
  obtain ⟨claimed, later⟩ := outcome
  cases claimed with
  | false => cases (Prod.mk.inj passed).1
  | true =>
    obtain ⟨same, rfl⟩ := Prod.mk.inj passed
    obtain rfl := Except.ok.inj same
    have bound : (later.bind view.klass other.classId).binding? view.klass = some other.classId := by
      simp
    exact Option.bind_eq_some_iff.mpr ⟨_, bound, lookupClass_known (judge_ok.mp judged).found⟩

theorem admitted_known (passed : admitted image view before = (.ok entry, after)) :
    image.classEntry? entry.classId = some entry := by
  obtain ⟨classId, -, known⟩ := Option.bind_eq_some_iff.mp (admitted_bound passed)
  exact classEntry_known known

/-! ## One load -/

/-- Loading a live class fills no metaspace slot but with what its loader sees. -/
theorem Loading.filled {result : Except Miss Nat} (labelled : image.Labelled)
    (familiar : Familiar table view) (loading : Loading image table view before result after) :
    Got.Filled (Sees image table view.loader) before.metaspace after.metaspace := by
  have admitted := admitted_filled labelled familiar before
  cases loading with
  | disabled => exact .refl _
  | missed enabled refused minor => rwa [refused] at admitted
  | outcast enabled refused shape found outcast =>
    rw [refused] at admitted
    rwa [outcast.frame]
  | halted enabled passed routed =>
    rw [passed] at admitted
    rwa [routed]
  | loaded enabled passed routed kept loads =>
    rw [passed] at admitted
    have start := loads.fed.metaspace
    rw [routed] at start
    exact admitted.trans start

theorem Outcast.resolved (outcast : Outcast image entry before after)
    (resolved : after.phase? codeId = some .resolved) : before.phase? codeId = some .resolved := by
  rw [phase?_of_slot?, outcast.slots] at resolved
  rw [phase?_of_slot?]
  cases seen : before.slot? codeId with
  | none => simp [seen] at resolved
  | some slot =>
    simp only [seen, Option.map_some, Option.some.injEq] at resolved ⊢
    exact castOut_resolved resolved

/-- What a load makes executable is a method of a known class, and all classes that the
method refers to are there. -/
theorem Loading.published {result : Except Miss Nat} (loading : Loading image table view before result after)
    (fresh : before.phase? codeId ≠ some .resolved) (resolved : after.phase? codeId = some .resolved) :
    ∃ entry record detail, image.classEntry? entry.classId = some entry ∧
      record ∈ methods image entry ∧ slotNumber record = codeId ∧
      image.library.detailOf record = .ok detail ∧
      ∀ index ∈ detail.classRefs, ∃ klass, after.metaspace.get index.toNat = some klass := by
  have admitted := admitted_slots image view before
  have unchanged : ∀ later : State, later.slots = before.slots → later.phase? codeId ≠ some .resolved := by
    intro later same
    rwa [State.phase?, same]
  cases loading with
  | disabled => exact absurd resolved fresh
  | missed enabled refused minor =>
    rw [refused] at admitted
    exact absurd resolved (unchanged _ admitted)
  | outcast enabled refused shape found outcast =>
    rw [refused] at admitted
    exact absurd (outcast.resolved resolved) (unchanged _ admitted)
  | halted enabled passed routed =>
    rw [passed] at admitted
    refine absurd resolved (unchanged _ ?_)
    rw [routed]
    exact admitted
  | loaded enabled passed routed kept loads =>
    rename_i middle later entry count
    rw [passed] at admitted
    have slots : later.slots = before.slots := by
      rw [routed]
      exact admitted
    rcases loads.slots codeId with
      same | ⟨-, record, member, number, code, detail, -, detailed, furnished⟩
    · rw [phase?_of_slot?, same, ← phase?_of_slot?] at resolved
      exact absurd resolved (unchanged later slots)
    · refine ⟨entry, record, detail, admitted_known passed, member, number, detailed,
        fun index listed => ?_⟩
      obtain ⟨name, there, klass, described, held⟩ := furnished.classes index listed
      obtain ⟨-, rfl⟩ := describedAt_ok.mp described
      exact ⟨klass, held⟩

/-! ## Many loads -/

/-- Loads live classes one after the other. -/
def loadClasses (image : Image) : List ClassView → Operation (List (Except Miss Nat))
  | [] => return []
  | view :: rest => do
    let reply ← loadClass image view
    return reply :: (← loadClasses image rest)

/-- Loading live classes fills no metaspace slot but with what the loader of one of them
sees. -/
theorem loadClasses_filled (labelled : image.Labelled) {views : List ClassView}
    (familiar : ∀ view ∈ views, Familiar table view) :
    Yields table (loadClasses image views) fun before _ after =>
      Got.Filled (fun index klass => ∃ view ∈ views, Sees image table view.loader index klass)
        before.metaspace after.metaspace := by
  induction views with
  | nil => exact fun cell => .refl cell.state.metaspace
  | cons view rest ih =>
    intro cell
    rw [loadClasses, Operation.finish_bind, Operation.finish_bind]
    have first := (loadClass_yields labelled table view cell).filled labelled
      (familiar view List.mem_cons_self)
    have onward := ih (fun other member => familiar other (List.mem_cons_of_mem _ member))
      ((loadClass image view).finish table cell).2
    refine .trans (first.mono fun index klass sees => ⟨view, List.mem_cons_self, sees⟩)
      (onward.mono ?_)
    rintro index klass ⟨other, member, sees⟩
    exact ⟨other, List.mem_cons_of_mem _ member, sees⟩

/-- The code of a class is found under its slot, with the class as its owner. -/
def Image.Registered (image : Image) : Prop :=
  ∀ entry record, image.classEntry? entry.classId = some entry → record ∈ methods image entry →
    image.record? (slotNumber record) = some ⟨record, some entry.classId⟩

theorem mem_methods {record : CodeRecord} : record ∈ methods image entry ↔
    ∃ records, image.library.methodsOf entry.record = .ok records ∧ record ∈ records := by
  unfold methods
  cases image.library.methodsOf entry.record <;> simp [Except.toOption]

/-- A known class is read from the blob under its number. -/
theorem classEntry_read (present : image.classEntry? entry.classId = some entry) :
    entry.classId < image.classCount ∧ image.library.classRecord entry.classId = .ok entry.record := by
  unfold Image.classEntry? at present
  split at present
  next inside =>
    obtain ⟨record, read, same⟩ := Option.map_eq_some_iff.mp present
    obtain rfl : record = entry.record := congrArg ClassEntry.record same
    exact ⟨inside, Outcome.toOption_some.mp read⟩
  next => cases present

section Built

variable {edits : List Edit} {settings : BuildSettings} {engineVersion name : String} {id : Nat}
  {options : LoadOptions} {loading journal : Journal} {library : Library} {heap : Heap}

/-- In a built blob every piece of code has one owner. -/
theorem built_registered (known : Edits.Known edits)
    (fits : (Draft.describe settings engineVersion edits).Fits)
    (loaded : ((Library.load (Draft.describe settings engineVersion edits).assemble name id
      options).run loading).1 = .ok library)
    (created : ((Heap.create library).run journal).1 = .ok heap) : heap.image.Registered := by
  obtain ⟨assembled, stubs, prepared, -⟩ := built_prepared known fits.addressable loaded created
  obtain ⟨-, sound, complete⟩ := prepare_claims prepared
  rw [Edits.describe_eq known] at fits
  intro entry record present member
  obtain ⟨records, listed, among⟩ := mem_methods.mp member
  obtain ⟨inside, read⟩ := classEntry_read present
  have claimed : Claims heap.image.library (some entry.classId) record :=
    .method inside read listed among
  obtain ⟨codeId, owned, slot, found⟩ := complete _ _ claimed
  obtain ⟨claimant, there⟩ := sound codeId owned found
  have owner := Edits.exclusive assembled fits.addressable claimant claimed there slot
  have number : slotNumber record = codeId := natural_unsigned (slotOf_ok.mp slot).1
  -- both records stand for the code that was assembled under this number
  obtain ⟨code, assembly, same⟩ := Draft.record_read assembled fits prepared found
  have known : entry.classId < (Edits.summary settings engineVersion edits).classes.length := by
    rwa [Image.classCount, Draft.classCount_eq assembled fits] at inside
  have written := Draft.classRecord_read assembled (List.getElem?_eq_getElem known)
  rw [Except.ok.inj (read.symm.trans written)] at listed
  have mine := Draft.method_listed assembled fits.addressable (List.getElem?_eq_getElem known) listed among
  obtain ⟨rival, -, other, present, rfl⟩ := Draft.mem_codeRecords.mp mine
  obtain rfl : rival = codeId := Except.ok.inj ((Draft.slotOf_read assembled fits present).symm.trans slot)
  obtain rfl := Option.some.inj (present.symm.trans assembly)
  rw [number, found]
  obtain ⟨_, _⟩ := owned
  obtain rfl : _ = _ := same
  obtain rfl : _ = _ := owner
  rfl

/-- Every class that a piece of code refers to is there: as the loader of the live class
sees it, unless its slot was filled before with what the loader of an earlier class
sees. -/
def Refers (image : Image) (table : Engine.Table) (earlier : List ClassView) (live : ClassView)
    (before after : State) (codeId : Nat) : Prop :=
  ∃ owned detail, image.record? codeId = some owned ∧
    image.library.detailOf owned.record = .ok detail ∧
    ∀ index ∈ detail.classRefs, ∃ klass, after.metaspace.get index.toNat = some klass ∧
      (Sees image table live.loader index.toNat klass ∨
        before.metaspace.get index.toNat = some klass ∧
          ∃ view ∈ earlier, Sees image table view.loader index.toNat klass)

/-- In the heap of a built blob, after loads of classes of any loaders, whatever a further
load publishes refers to classes as the loader of its class sees them, but for the
slots that were filled before. -/
theorem reference_viewpoints (known : Edits.Known edits)
    (fits : (Draft.describe settings engineVersion edits).Fits)
    (loaded : ((Library.load (Draft.describe settings engineVersion edits).assemble name id
      options).run loading).1 = .ok library)
    (created : ((Heap.create library).run journal).1 = .ok heap) {earlier : List ClassView}
    (familiar : ∀ view ∈ live :: earlier, Familiar table view) (counters : Counters)
    (notes : Journal) {codeId : Nat} :
    let before := ((loadClasses heap.image earlier).finish table ⟨heap.state, counters, notes⟩).2
    let after := ((loadClass heap.image live).finish table before).2
    before.state.phase? codeId ≠ some .resolved → after.state.phase? codeId = some .resolved →
      Refers heap.image table earlier live before.state after.state codeId := by
  intro before after fresh resolved
  have labelled := built_labelled known fits loaded created
  have registered := built_registered known fits loaded created
  have null := (created_null created).metaspace
  have loading := loadClass_yields labelled table live before
  obtain ⟨entry, record, detail, present, member, rfl, detailed, there⟩ :=
    loading.published fresh resolved
  refine ⟨_, detail, registered entry record present member, detailed, fun index listed => ?_⟩
  obtain ⟨klass, held⟩ := there index listed
  refine ⟨klass, held, ?_⟩
  rcases (loading.filled labelled (familiar live List.mem_cons_self)).source _ _ held with
    kept | sees
  · have filled := loadClasses_filled labelled
      (fun view member => familiar view (List.mem_cons_of_mem _ member))
      ⟨heap.state, counters, notes⟩
    rcases filled.source _ _ kept with start | seen
    · obtain ⟨_, -, impossible⟩ := null _ _ start
      exact impossible.elim
    · exact .inr ⟨kept, seen⟩
  · exact .inl sees

end Built

/-! ## A class of another loader -/

/-- Two classes whose methods refer to a third one. -/
def rivals : List Edit :=
  [.addClass "A" 7, .addClass "C" 8, .addMetaspaceSlot "B",
   .addMethod 0 { name := "m", signature := "()V", classRefs := [2] },
   .addMethod 1 { name := "m", signature := "()V", classRefs := [2] }]

/-- The live classes of the example: the two that are loaded, and the third one as each
of the loaders sees it. -/
def liveA : ClassRef := ⟨3, by decide⟩

def liveC : ClassRef := ⟨2, by decide⟩

def liveB : ClassRef := ⟨10, by decide⟩

def otherB : ClassRef := ⟨20, by decide⟩

def rivalA : ClassView where
  klass := liveA
  name := "A"
  loader := 1
  fingerprint := 7

def rivalC : ClassView where
  klass := liveC
  name := "C"
  loader := 2
  fingerprint := 8

/-- An engine in which the third class is another one for each of the loaders. -/
def rivalTable : Engine.Table
  | .findClass "A" 1 => some liveA
  | .findClass "C" 2 => some liveC
  | .findClass "B" 1 => some liveB
  | .findClass "B" 2 => some otherB
  | .findClass _ _ => none
  | .findMethod holder _ => some { method := ⟨holder.raw, holder.nonnull⟩ }
  | .resolveMetadata _ _ => none
  | .resolveObject _ => none
  | .findRoutine _ => none
  | .install _ => ()
  | .deoptimize _ => ()

/-- The heap after the first of the two classes was loaded, and after both were. -/
def rivalCells (heap : Heap) : Cell × Cell :=
  let before := ((loadClasses heap.image [rivalA]).finish rivalTable ⟨heap.state, {}, []⟩).2
  (before, ((loadClass heap.image rivalC).finish rivalTable before).2)

theorem rivals_familiar : ∀ view ∈ [rivalC, rivalA], Familiar rivalTable view := by
  intro view member
  rcases List.mem_pair.mp member with rfl | rfl <;> rfl

set_option maxRecDepth 1000000 in
theorem rivals_linked : (built? rivals).any (fun built =>
    let (before, after) := rivalCells built.2
    before.state.phase? 1 == some .unresolved && after.state.phase? 1 == some .resolved &&
      after.state.metaspace.get 2 == some liveB &&
      built.2.image.library.metaspaceName 2 == .ok "B" &&
      ((built.2.image.record? 1).any fun owned =>
        (built.2.image.library.detailOf owned.record).toOption.any fun detail =>
          detail.classRefs.contains 2)) = true := by
  decide +kernel

/-- The second class publishes a method that refers to the third class as the loader of
the first one sees it, not as its own. -/
theorem viewpoint_overtaken : ∃ (library : Library) (heap : Heap),
    ((Library.load (Draft.describe {} "1" rivals).assemble "lib" 0
      { verifyChecksum := false }).run []).1 = .ok library ∧
    ((Heap.create library).run []).1 = .ok heap ∧
    (∀ view ∈ [rivalC, rivalA], Familiar rivalTable view) ∧
    (rivalCells heap).1.state.phase? 1 = some .unresolved ∧
    (rivalCells heap).2.state.phase? 1 = some .resolved ∧
    ∃ owned detail, ∃ index ∈ detail.classRefs, heap.image.record? 1 = some owned ∧
      heap.image.library.detailOf owned.record = .ok detail ∧
      ∀ klass, (rivalCells heap).2.state.metaspace.get index.toNat = some klass →
        ¬Sees heap.image rivalTable rivalC.loader index.toNat klass := by
  obtain ⟨⟨library, heap⟩, built, linked⟩ := (Option.any_eq_true _ _).mp rivals_linked
  obtain ⟨loaded, created⟩ := built_some built
  simp only [Bool.and_eq_true, beq_iff_eq, Option.any_eq_true] at linked
  obtain ⟨⟨⟨⟨fresh, resolved⟩, held⟩, named⟩, owned, found, detail, detailed, listed⟩ := linked
  refine ⟨library, heap, loaded, created, rivals_familiar, fresh, resolved, owned, detail, 2,
    List.contains_iff_mem.mp listed, found, Outcome.toOption_some.mp detailed, ?_⟩
  rintro klass there ⟨name, called, told⟩
  obtain rfl := Option.some.inj (held.symm.trans there)
  obtain rfl := Except.ok.inj (named.symm.trans called)
  have seen : rivalTable (.findClass "B" rivalC.loader) = some otherB := rfl
  cases seen.symm.trans told

theorem reference_viewpoints_rivals : ∃ (library : Library) (heap : Heap),
    ((Library.load (Draft.describe {} "1" rivals).assemble "lib" 0
      { verifyChecksum := false }).run []).1 = .ok library ∧
    ((Heap.create library).run []).1 = .ok heap ∧
    (rivalCells heap).1.state.phase? 1 ≠ some .resolved ∧
    (rivalCells heap).2.state.phase? 1 = some .resolved ∧
    Refers heap.image rivalTable [rivalA] rivalC (rivalCells heap).1.state
      (rivalCells heap).2.state 1 := by
  obtain ⟨⟨library, heap⟩, built, linked⟩ := (Option.any_eq_true _ _).mp rivals_linked
  obtain ⟨loaded, created⟩ := built_some built
  simp only [Bool.and_eq_true, beq_iff_eq] at linked
  obtain ⟨⟨⟨⟨phase, resolved⟩, -⟩, -⟩, -⟩ := linked
  have known : Edits.Known rivals := by decide
  have fits : (Draft.describe {} "1" rivals).Fits := Draft.fits_of_length (by decide +kernel)
  have fresh : (rivalCells heap).1.state.phase? 1 ≠ some .resolved := by simp [phase]
  exact ⟨library, heap, loaded, created, fresh, resolved,
    reference_viewpoints known fits loaded created rivals_familiar {} [] fresh resolved⟩

end Precompiled.Heap
