import Mathlib.Data.List.Nodup
import Precompiled.Proofs.Heap.Fates

/-! The order in which classes are loaded. Loads share reference tables, one class may
fill the slot of another, and a sweep may come before or after the code it is about was
published. All the same, a heap ends in what is settled by which classes were loaded. -/
namespace Precompiled.Heap

open Blob

variable {image : Image} {table : Engine.Table} {loader : LoaderId} {view : ClassView}
  {start before after state : State} {entry : ClassEntry} {done : List ClassView}

/-- What the loads of the classes of a list leave behind, whatever their order. -/
structure Settled (image : Image) (table : Engine.Table) (loader : LoaderId) (start : State)
    (done : List ClassView) (state : State) : Prop where
  enabled : state.linkageDisabled = false
  bindings : ∀ klass classId, state.binding? klass = some classId ↔ ∃ view ∈ done,
    view.klass = klass ∧ ∃ entry, Matches image entry view ∧ entry.classId = classId
  loaders : ∀ classId current, state.loader? classId = some current ↔ current = loader ∧
    ∃ view ∈ done, ∃ entry, Matches image entry view ∧ entry.classId = classId
  stocked : Stocked image table loader done state
  slots : ∀ codeId, Fate image table start done codeId (state.slot? codeId)

/-! ## One load -/

/-- Whether a reply is a success, and if not which miss it is. -/
def kindOf {α : Type} (reply : Except Miss α) : Except Miss Unit :=
  reply.map fun _ => ()

/-- A class that is presented for the first time is not bound. -/
theorem Settled.unbound (settled : Settled image table loader start done state)
    (fresh : ∀ other ∈ done, other.klass ≠ view.klass) :
    boundEntry image state view.klass = none := by
  have none : state.binding? view.klass = none := by
    by_contra bound
    obtain ⟨classId, binding⟩ := Option.ne_none_iff_exists'.mp bound
    obtain ⟨other, member, same, -⟩ := (settled.bindings _ _).mp binding
    exact fresh other member same
  simp [boundEntry, none]

/-- A class that does not pass the gate changes slots at most. -/
theorem Settled.refused (settled : Settled image table loader start done before)
    (refused : ∀ entry, ¬Matches image entry view) (frame : before.Reslotted after)
    (slots : ∀ codeId, Fate image table start (view :: done) codeId (after.slot? codeId)) :
    Settled image table loader start (view :: done) after where
  enabled := by
    rw [frame]
    exact settled.enabled
  bindings klass classId := by
    have same : after.binding? klass = before.binding? klass := by
      rw [frame]
      rfl
    rw [same, settled.bindings]
    simp [refused]
  loaders classId current := by
    have same : after.loader? classId = before.loader? classId := by
      rw [frame]
      rfl
    rw [same, settled.loaders]
    simp [refused]
  stocked := by
    rw [frame]
    have stocked := settled.stocked.cons view
    exact { stocked with }
  slots := slots

/-- The place of a class is free, or held by the class itself. -/
theorem Settled.place (regular : image.Regular) (familiar : Familiar table view)
    (settled : Settled image table view.loader start done before) (fits : Matches image entry view) :
    (claimPlace entry view before).1 = true ∧ before.Reseated (claimPlace entry view before).2 ∧
      (claimPlace entry view before).2.loaders.length = before.loaders.length ∧
      ∀ other, (claimPlace entry view before).2.loader? other =
        if other = entry.classId then some view.loader else before.loader? other := by
  have known := lookupClass_known fits.found
  obtain ⟨index, slot, inside⟩ := regular.housed entry known
  refine claimPlace_free slot ?_ ?_ ?_ ?_
  · rwa [settled.stocked.metaspaceSize]
  · rw [settled.stocked.loaderCount]
    exact (classEntry_read known).1
  · intro klass held
    obtain ⟨name, named, told⟩ := settled.stocked.metaspace index klass held
    have called := regular.labelled.classes _ entry index fits.found slot
    obtain rfl := Except.ok.inj (called.symm.trans named)
    exact Option.some.inj (told.symm.trans familiar)
  · exact fun current bound => ((settled.loaders _ _).mp bound).1

/-- A class that passes the gate is bound, and finds its tables as it needs them. -/
theorem Settled.admits (regular : image.Regular) (familiar : Familiar table view)
    (settled : Settled image table view.loader start done before)
    (fresh : ∀ other ∈ done, other.klass ≠ view.klass) (fits : Matches image entry view) :
    ∃ middle, admitted image view before = (.ok entry, middle) ∧
      middle.linkageDisabled = false ∧ middle.slots = before.slots ∧
      (∀ klass classId, middle.binding? klass = some classId ↔ ∃ other ∈ view :: done,
        other.klass = klass ∧ ∃ entry, Matches image entry other ∧ entry.classId = classId) ∧
      (∀ classId current, middle.loader? classId = some current ↔ current = view.loader ∧
        ∃ other ∈ view :: done, ∃ entry, Matches image entry other ∧ entry.classId = classId) ∧
      Stocked image table view.loader done middle := by
  obtain ⟨claimed, frame, count, loaders⟩ := settled.place regular familiar fits
  have filled := claimPlace_filled entry view before
  have bindings : (claimPlace entry view before).2.bindings = before.bindings := by rw [frame]
  have admits : admitted image view before =
      (.ok entry, (claimPlace entry view before).2.bind view.klass entry.classId) := by
    simp [admitted, settled.unbound fresh, bound, judge_ok.mpr fits, claimed]
  have only : ∀ found : ClassEntry, Matches image found view ↔ found = entry := fun found =>
    ⟨fun matched => (matched.unique fits.found).symm, fun same => same ▸ fits⟩
  refine ⟨_, admits, ?_, ?_, fun klass classId => ?_, fun classId current => ?_, ?_⟩
  · have same : (claimPlace entry view before).2.linkageDisabled = before.linkageDisabled := by
      rw [frame]
    exact same.trans settled.enabled
  · exact claimPlace_slots entry view before
  · rw [binding_bind, State.binding?, bindings, ← State.binding?]
    simp only [List.mem_cons, exists_eq_or_imp, only, exists_eq_left, ← settled.bindings]
    by_cases own : klass = view.klass
    · subst own
      have unbound : before.binding? view.klass ≠ some classId := fun bound => by
        obtain ⟨other, member, same, -⟩ := (settled.bindings _ _).mp bound
        exact fresh other member same
      simp [unbound]
    · simp [own, Ne.symm own]
  · have same : State.loader? ((claimPlace entry view before).2.bind view.klass entry.classId) classId =
        (claimPlace entry view before).2.loader? classId := rfl
    rw [same, loaders]
    simp only [List.mem_cons, exists_eq_or_imp, only, exists_eq_left]
    by_cases own : classId = entry.classId
    · simp [own, eq_comm]
    · rw [if_neg own, settled.loaders]
      simp [Ne.symm own]
  · have sees := admitted_filled regular.labelled familiar before
    rw [admits] at sees
    have metadata : (claimPlace entry view before).2.metadata = before.metadata := by rw [frame]
    have objects : (claimPlace entry view before).2.objects = before.objects := by rw [frame]
    exact settled.stocked.seated count sees metadata objects

/-- A class that passes the gate puts its code where slots are free. -/
theorem Settled.linked (regular : image.Regular) (familiar : Familiar table view)
    (settled : Settled image table view.loader start done before)
    (names : ∀ other ∈ done, other.name ≠ view.name)
    (handles : ∀ other ∈ done, other.klass ≠ view.klass) (fits : Matches image entry view)
    {middle later : State} (passed : admitted image view before = (.ok entry, middle))
    (routed : middle.Routed later) (kept : later.linkageDisabled = middle.linkageDisabled)
    (loads : Loads image table entry view (OwnSlot image entry) (methods image entry) later after) :
    Settled image table view.loader start (view :: done) after := by
  obtain ⟨place, admits, enabled, slots, bindings, loaders, stocked⟩ :=
    settled.admits regular familiar handles fits
  obtain rfl : place = middle := (Prod.mk.inj (admits.symm.trans passed)).2
  have routedStock : Stocked image table view.loader done later := by
    rw [routed]
    exact { stocked with }
  have same : ∀ codeId, later.slot? codeId = before.slot? codeId := by
    intro codeId
    rw [routed, State.slot?, State.slot?, ← slots]
  have agrees := routedStock.agrees regular names fits
  refine ⟨?_, fun klass classId => ?_, fun classId current => ?_, ?_, fun codeId => ?_⟩
  · rw [loads.frame, kept]
    exact enabled
  · have unchanged : after.binding? klass = place.binding? klass := by
      rw [loads.frame, routed]
      rfl
    rw [unchanged]
    exact bindings klass classId
  · have unchanged : after.loader? classId = place.loader? classId := by
      rw [loads.frame, routed]
      rfl
    rw [unchanged]
    exact loaders classId current
  · exact routedStock.fed fits loads.fed (by rw [loads.frame])
  · refine Fate.link fits agrees loads ?_
    rw [same]
    exact settled.slots codeId

/-- One more load leaves behind what does not depend on the order, and the verdict on
its class settles the reply. -/
theorem Settled.load {result : Except Miss Nat} (regular : image.Regular) (pristine : start.Pristine)
    (provides : Provides image table) (familiar : Familiar table view)
    (settled : Settled image table view.loader start done before)
    (names : ∀ other ∈ done, other.name ≠ view.name)
    (handles : ∀ other ∈ done, other.klass ≠ view.klass)
    (loading : Loading image table view before result after) :
    Settled image table view.loader start (view :: done) after ∧
      kindOf result = kindOf (judge image view) := by
  have enabled := settled.enabled
  cases judged : judge image view with
  | error miss =>
    have admits : admitted image view before = (.error miss, before) := by
      simp [admitted, settled.unbound handles, bound, judged]
    have refused : ∀ entry, ¬Matches image entry view := fun entry fits => by
      cases (judge_ok.mpr fits).symm.trans judged
    cases loading with
    | disabled disabled => cases disabled.symm.trans enabled
    | missed _ refusal minor =>
      obtain ⟨same, rfl⟩ := Prod.mk.inj (admits.symm.trans refusal)
      obtain rfl := Except.error.inj same
      refine ⟨settled.refused refused rfl fun codeId => ?_, rfl⟩
      refine (settled.slots codeId).neutral ?_ ?_
      · rintro ⟨entry, found, -⟩
        exact minor ((judge_shape judged).mpr ⟨entry, found⟩) entry found
      · rintro code ⟨entry, record, fits, -⟩
        exact refused entry fits
    | outcast _ refusal shape found outcast =>
      obtain ⟨same, rfl⟩ := Prod.mk.inj (admits.symm.trans refusal)
      obtain rfl := Except.error.inj same
      refine ⟨settled.refused refused outcast.frame fun codeId => ?_, rfl⟩
      exact (settled.slots codeId).sweep regular pristine names found (refused _) outcast
    | halted _ passed => cases (Prod.mk.inj (admits.symm.trans passed)).1
    | loaded _ passed => cases (Prod.mk.inj (admits.symm.trans passed)).1
  | ok entry =>
    have fits := judge_ok.mp judged
    obtain ⟨middle, admits, -⟩ := settled.admits regular familiar handles fits
    cases loading with
    | disabled disabled => cases disabled.symm.trans enabled
    | missed _ refusal => cases (Prod.mk.inj (admits.symm.trans refusal)).1
    | outcast _ refusal => cases (Prod.mk.inj (admits.symm.trans refusal)).1
    | halted _ _ _ lacking => exact absurd provides lacking
    | loaded _ passed routed kept loads =>
      obtain ⟨same, -⟩ := Prod.mk.inj (admits.symm.trans passed)
      obtain rfl := Except.ok.inj same
      exact ⟨settled.linked regular familiar names handles fits passed routed kept loads, rfl⟩

/-! ## Many loads -/

/-- Two heaps whose differences do not show in what is executable and who is bound. -/
structure Alike (first second : State) : Prop where
  phases : ∀ codeId, first.phase? codeId = second.phase? codeId
  code : ∀ codeId, first.executable? codeId = second.executable? codeId
  bindings : ∀ klass, first.binding? klass = second.binding? klass
  loaders : ∀ classId, first.loader? classId = second.loader? classId

theorem executable?_of_slot? (state : State) (codeId : Nat) : state.executable? codeId =
    (state.slot? codeId).bind fun slot => if slot.1 = .resolved then slot.2 else none := by
  simp only [State.executable?, State.slot?, Option.bind_map]
  rfl

/-- What loads leave behind is settled by which classes were loaded. -/
theorem Settled.alike {rest : List ClassView} (regular : image.Regular)
    (apart : ∀ view ∈ done, ∀ other ∈ done, view.name = other.name → view = other)
    (same : ∀ view, view ∈ done ↔ view ∈ rest)
    (first : Settled image table loader start done before)
    (second : Settled image table loader start rest after) : Alike before after where
  phases codeId := by
    rw [phase?_of_slot?, phase?_of_slot?]
    exact ((first.slots codeId).same regular apart same (second.slots codeId)).1
  code codeId := by
    rw [executable?_of_slot?, executable?_of_slot?]
    obtain ⟨phase, resolved⟩ := (first.slots codeId).same regular apart same (second.slots codeId)
    generalize before.slot? codeId = early at phase resolved ⊢
    generalize after.slot? codeId = late at phase resolved ⊢
    by_cases runs : early.map Prod.fst = some .resolved
    · rw [resolved runs]
    · have idle : ∀ slot : Option (Slot.Phase × Option LinkedCode),
          slot.map Prod.fst ≠ some .resolved →
            (slot.bind fun slot => if slot.1 = .resolved then slot.2 else none) = none := by
        rintro (_ | slot) other
        · rfl
        · simpa using fun resolved => absurd resolved (by simpa using other)
      rw [idle early runs, idle late (phase ▸ runs)]
  bindings klass := Option.ext fun classId => by
    rw [first.bindings, second.bindings]
    simp only [same]
  loaders classId := Option.ext fun current => by
    rw [first.loaders, second.loaders]
    simp only [same]

/-- No view of a list has what the one at its head has. -/
theorem fresh_of_nodup {α : Type} {trait : ClassView → α} {rest : List ClassView}
    (nodup : ((view :: rest ++ done).map trait).Nodup) :
    (∀ other ∈ done, trait other ≠ trait view) ∧ ((rest ++ view :: done).map trait).Nodup := by
  constructor
  · intro other member same
    rw [List.cons_append, List.map_cons, List.nodup_cons] at nodup
    exact nodup.1 (same ▸ List.mem_map_of_mem (List.mem_append_right _ member))
  · exact (List.perm_middle.map trait).nodup_iff.mpr nodup

/-- After loads in any order, all of the classes are settled, and each got the reply that
the verdict on it says. -/
theorem loadClasses_settled (regular : image.Regular) (pristine : start.Pristine)
    (provides : Provides image table) {views : List ClassView}
    (common : ∀ view ∈ views, view.loader = loader) (familiar : ∀ view ∈ views, Familiar table view)
    (names : ((views ++ done).map ClassView.name).Nodup)
    (handles : ((views ++ done).map ClassView.klass).Nodup) :
    Yields table (loadClasses image views) fun before replies after =>
      Settled image table loader start done before →
        Settled image table loader start (views.reverse ++ done) after ∧
          replies.map kindOf = views.map fun view => kindOf (judge image view) := by
  induction views generalizing done with
  | nil => exact fun cell settled => ⟨settled, rfl⟩
  | cons view rest ih =>
    intro cell settled
    obtain ⟨named, others⟩ := fresh_of_nodup names
    obtain ⟨handled, remaining⟩ := fresh_of_nodup handles
    obtain rfl := common view List.mem_cons_self
    have loading := loadClass_yields regular.labelled table view cell
    obtain ⟨first, kind⟩ := settled.load regular pristine provides
      (familiar view List.mem_cons_self) named handled loading
    obtain ⟨last, kinds⟩ := ih (fun other member => common other (List.mem_cons_of_mem _ member))
      (fun other member => familiar other (List.mem_cons_of_mem _ member)) others remaining
      ((loadClass image view).finish table cell).2 first
    rw [loadClasses, Operation.finish_bind, Operation.finish_bind]
    refine ⟨?_, ?_⟩
    · rw [List.reverse_cons, List.append_assoc]
      exact last
    · exact congrArg₂ List.cons kind kinds

/-! ## Built blobs -/

section Built

variable {edits : List Edit} {settings : BuildSettings} {engineVersion name : String} {id : Nat}
  {options : LoadOptions} {loading journal : Journal} {library : Library} {heap : Heap}

/-- In a new heap no class was loaded. -/
theorem created_settled (created : ((Heap.create library).run journal).1 = .ok heap)
    (table : Engine.Table) (loader : LoaderId) :
    Settled heap.image table loader heap.state [] heap.state := by
  obtain ⟨stubs, -, settled⟩ := create_ok.mp created
  obtain ⟨settles, -⟩ := settleAll_settles (fun _ member => member) initial_pristine settled
  have frame := settles.reslotted
  have null := created_null created
  have unbound : heap.state.bindings = [] := by
    rw [frame]
    rfl
  have loaders : heap.state.loaders = List.replicate heap.image.classCount none := by
    rw [frame]
    rfl
  have unled : ∀ classId, heap.state.loader? classId = none := by
    intro classId
    by_cases inside : classId < heap.image.classCount <;> simp [State.loader?, loaders, inside]
  refine ⟨by rw [frame]; rfl, ?_, ?_, ?_, ?_⟩
  · simp [State.binding?, unbound]
  · simp [unled]
  · refine ⟨by simp [loaders], ?_, ?_, ?_, ?_, ?_, ?_⟩
    · rw [frame]
      exact List.length_replicate
    · rw [frame]
      exact List.length_replicate
    · rw [frame]
      exact List.length_replicate
    · intro index klass held
      obtain ⟨_, -, impossible⟩ := null.metaspace index klass held
      exact impossible.elim
    · intro index value held
      obtain ⟨_, _, _, -, impossible⟩ := null.metadata index value held
      exact impossible.elim
    · intro index object held
      obtain ⟨_, -, impossible⟩ := null.objects index object held
      exact impossible.elim
  · intro codeId
    by_cases free : heap.state.slot? codeId = some (.unresolved, none)
    · rw [free]
      exact .idle free (by simp) (by simp)
    · exact .taken free

/-- The metaspace slot of a class is that of its name. -/
theorem built_seat (known : Edits.Known edits)
    (fits : (Draft.describe settings engineVersion edits).Fits)
    (loaded : ((Library.load (Draft.describe settings engineVersion edits).assemble name id
      options).run loading).1 = .ok library)
    (created : ((Heap.create library).run journal).1 = .ok heap) {entry : ClassEntry}
    (present : heap.image.classEntry? entry.classId = some entry) :
    ∃ owner, (Edits.summary settings engineVersion edits).classes[entry.classId]? = some owner ∧
      natural? entry.record.gotIndex = some owner.gotIndex ∧
      owner.gotIndex < heap.image.library.header.metaspaceSize.toNat := by
  obtain ⟨assembled, -, -, -⟩ := built_prepared known fits.addressable loaded created
  rw [Edits.describe_eq known] at fits
  obtain ⟨inside, read⟩ := classEntry_read present
  rw [Image.classCount, Draft.classCount_eq assembled fits] at inside
  have found := List.getElem?_eq_getElem inside
  have written := Draft.classRecord_read assembled found
  have room := (List.getElem?_eq_some_iff.mp (summary_listed _ (List.getElem_mem inside))).1
  refine ⟨_, found, ?_, (Draft.metaspaceSize_eq assembled fits).symm ▸ room⟩
  rw [Except.ok.inj (read.symm.trans written)]
  exact Draft.natural_ofNat (Draft.slot_lt fits room)

/-- Classes of a built blob can be told apart. -/
theorem built_regular (known : Edits.Known edits)
    (fits : (Draft.describe settings engineVersion edits).Fits)
    (loaded : ((Library.load (Draft.describe settings engineVersion edits).assemble name id
      options).run loading).1 = .ok library)
    (created : ((Heap.create library).run journal).1 = .ok heap) : heap.image.Regular where
  labelled := built_labelled known fits loaded created
  registered := built_registered known fits loaded created
  housed entry present := by
    obtain ⟨owner, -, slot, room⟩ := built_seat known fits loaded created present
    exact ⟨owner.gotIndex, slot, room⟩

/-- In the heap of a built blob, before an engine that provides all routines, loading
live classes of one loader ends alike in any order: each class gets the same kind of
reply, the same slots are executable with the same code, and the same classes and
loaders are bound. -/
theorem load_order_irrelevant (known : Edits.Known edits)
    (fits : (Draft.describe settings engineVersion edits).Fits)
    (loaded : ((Library.load (Draft.describe settings engineVersion edits).assemble name id
      options).run loading).1 = .ok library)
    (created : ((Heap.create library).run journal).1 = .ok heap)
    (provides : Provides heap.image table) {first second : List ClassView}
    (permuted : first.Perm second) (names : (first.map ClassView.name).Nodup)
    (handles : (first.map ClassView.klass).Nodup) (common : ∀ view ∈ first, view.loader = loader)
    (familiar : ∀ view ∈ first, Familiar table view) (counters : Counters) (notes : Journal) :
    let one := (loadClasses heap.image first).finish table ⟨heap.state, counters, notes⟩
    let other := (loadClasses heap.image second).finish table ⟨heap.state, counters, notes⟩
    Alike one.2.state other.2.state ∧ ∃ verdict : ClassView → Except Miss Unit,
      one.1.map kindOf = first.map verdict ∧ other.1.map kindOf = second.map verdict := by
  have regular := built_regular known fits loaded created
  have pristine := created_pristine created
  have start := created_settled created table loader
  have settles : ∀ views : List ClassView, first.Perm views →
      Settled heap.image table loader heap.state (views.reverse ++ [])
          ((loadClasses heap.image views).finish table ⟨heap.state, counters, notes⟩).2.state ∧
        ((loadClasses heap.image views).finish table ⟨heap.state, counters, notes⟩).1.map kindOf =
          views.map fun view => kindOf (judge heap.image view) := by
    intro views same
    refine loadClasses_settled regular pristine provides
      (fun view member => common view (same.mem_iff.mpr member))
      (fun view member => familiar view (same.mem_iff.mpr member)) ?_ ?_ _ start
    · rw [List.append_nil]
      exact (same.map _).nodup_iff.mp names
    · rw [List.append_nil]
      exact (same.map _).nodup_iff.mp handles
  obtain ⟨early, kinds⟩ := settles first (List.Perm.refl _)
  obtain ⟨late, others⟩ := settles second permuted
  refine ⟨early.alike regular ?_ ?_ late, _, kinds, others⟩
  · intro view member other among same
    simp only [List.append_nil, List.mem_reverse] at member among
    exact List.inj_on_of_nodup_map names member among same
  · intro view
    simp only [List.append_nil, List.mem_reverse]
    exact permuted.mem_iff

end Built

/-- The second of two classes that refer to a third one, after it was changed. -/
def changedC : ClassView where
  klass := liveC
  name := "C"
  loader := 1
  fingerprint := 9

/-- An engine that knows three classes, the same ones for all loaders. -/
def plainTable : Engine.Table
  | .findClass "A" _ => some liveA
  | .findClass "B" _ => some liveB
  | .findClass "C" _ => some liveC
  | .findClass _ _ => none
  | .findMethod holder _ => some { method := ⟨holder.raw, holder.nonnull⟩ }
  | .resolveMetadata _ _ => none
  | .resolveObject _ => none
  | .findRoutine _ => none
  | .install _ => ()
  | .deoptimize _ => ()

set_option maxRecDepth 1000000 in
theorem rivals_bare : (built? rivals).any (fun built =>
    built.2.image.library.routines == .ok []) = true := by
  decide +kernel

theorem load_order_irrelevant_rivals : ∃ (library : Library) (heap : Heap),
    ((Library.load (Draft.describe {} "1" rivals).assemble "lib" 0
      { verifyChecksum := false }).run []).1 = .ok library ∧
    ((Heap.create library).run []).1 = .ok heap ∧ Provides heap.image plainTable ∧
    ∃ verdict : ClassView → Except Miss Unit,
      Alike ((loadClasses heap.image [rivalA, changedC]).finish plainTable ⟨heap.state, {}, []⟩).2.state
        ((loadClasses heap.image [changedC, rivalA]).finish plainTable ⟨heap.state, {}, []⟩).2.state ∧
      ((loadClasses heap.image [rivalA, changedC]).finish plainTable ⟨heap.state, {}, []⟩).1.map
        kindOf = [verdict rivalA, verdict changedC] ∧
      ((loadClasses heap.image [changedC, rivalA]).finish plainTable ⟨heap.state, {}, []⟩).1.map
        kindOf = [verdict changedC, verdict rivalA] := by
  obtain ⟨⟨library, heap⟩, built, bare⟩ := (Option.any_eq_true _ _).mp rivals_bare
  obtain ⟨loaded, created⟩ := built_some built
  have known : Edits.Known rivals := by decide
  have fits : (Draft.describe {} "1" rivals).Fits := Draft.fits_of_length (by decide +kernel)
  have provides : Provides heap.image plainTable :=
    ⟨[], eq_of_beq bare, fun _ impossible => (List.not_mem_nil impossible).elim⟩
  have common : ∀ view ∈ [rivalA, changedC], view.loader = 1 := by
    intro view member
    rcases List.mem_pair.mp member with rfl | rfl <;> rfl
  have familiar : ∀ view ∈ [rivalA, changedC], Familiar plainTable view := by
    intro view member
    rcases List.mem_pair.mp member with rfl | rfl <;> rfl
  obtain ⟨alike, verdict, one, other⟩ := load_order_irrelevant known fits loaded created provides
    (List.Perm.swap changedC rivalA []) (by decide) (by decide) common familiar {} []
  exact ⟨library, heap, loaded, created, provides, verdict, alike, one, other⟩

end Precompiled.Heap
