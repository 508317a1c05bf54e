import Precompiled.Proofs.Heap.Parts
import Precompiled.Proofs.Heap.Withdrawal

/-! Whether a live class is admitted, and what follows for slots. The class, the blob
and the answers of the engine settle all of it, apart from the place of the class: it
may be taken by another class or another loader. -/
namespace Precompiled.Heap

open Blob

variable {image : Image} {table : Engine.Table} {view : ClassView} {before middle after : State}
  {codeId : Nat} {entry : ClassEntry} {codes : Nat → Prop}

/-! ## The gate -/

/-- What the gate says about a live class before it looks at the place of the class. -/
def judge (image : Image) (view : ClassView) : Except Miss ClassEntry :=
  match lookupClass image view.name with
  | .ok (some entry) =>
    if view.redefined then .error .redefined
    else if entry.record.fingerprint ≠ view.fingerprint then .error .fingerprintMismatch
    else if image.library.settings.omitAssertions && view.assertionsEnabled then
      .error .assertionsEnabled
    else .ok entry
  | _ => .error .notFound

theorem judge_ok : judge image view = .ok entry ↔ Matches image entry view := by
  unfold judge
  constructor
  · intro passed
    split at passed
    next other found =>
      split at passed
      · cases passed
      next fresh =>
      split at passed
      · cases passed
      next fingerprint =>
      split at passed
      · cases passed
      next assertions =>
      obtain rfl := Except.ok.inj passed
      exact ⟨found, by simpa using fresh, not_not.mp fingerprint, by simpa using assertions⟩
    next => cases passed
  · rintro ⟨found, fresh, fingerprint, assertions⟩
    simp [found, fresh, fingerprint, assertions]

/-- Only a class that the blob knows is of another shape. -/
theorem judge_shape {miss : Miss} (judged : judge image view = .error miss) :
    isShapeMiss miss = true ↔ ∃ entry, lookupClass image view.name = .ok (some entry) := by
  unfold judge at judged
  split at judged
  next entry found =>
    rw [found]
    refine ⟨fun _ => ⟨entry, rfl⟩, fun _ => ?_⟩
    split at judged
    · obtain rfl := Except.error.inj judged
      rfl
    split at judged
    · obtain rfl := Except.error.inj judged
      rfl
    split at judged
    · obtain rfl := Except.error.inj judged
      rfl
    cases judged
  next absent =>
    obtain rfl := Except.error.inj judged
    constructor
    · intro impossible
      cases impossible
    · rintro ⟨entry, found⟩
      exact (absent entry found).elim

/-- What binding a live class comes to. -/
def bound (image : Image) (view : ClassView) (state : State) : Except Miss ClassEntry × State :=
  match judge image view with
  | .error miss => (.error miss, state)
  | .ok entry =>
    let (claimed, state) := claimPlace entry view state
    if claimed then (.ok entry, state.bind view.klass entry.classId)
    else (.error .classloaderMismatch, state)

theorem bindClass_yields (table : Engine.Table) (image : Image) (view : ClassView) :
    Yields table (bindClass image view) fun before result after =>
      (result, after) = bound image view before := by
  intro cell
  unfold bindClass findClass
  rcases found : lookupClass image view.name with _ | _ | entry
  · simp [bound, judge, found]
  · simp [bound, judge, found]
  · by_cases redefined : view.redefined = true
    · simp [bound, judge, found, gate, redefined]
    by_cases fingerprint : entry.record.fingerprint = view.fingerprint
    swap
    · simp [bound, judge, found, gate, redefined, fingerprint]
    by_cases assertions : (image.library.settings.omitAssertions && view.assertionsEnabled) = true
    · simp [bound, judge, found, gate, redefined, fingerprint, assertions]
    rcases claimed : claimPlace entry view cell.state with ⟨_ | _, state⟩
    · simp [bound, judge, found, gate, redefined, fingerprint, assertions, claimed]
    · simp [bound, judge, found, gate, redefined, fingerprint, assertions, claimed]

/-- What resolving a live class comes to. -/
def admitted (image : Image) (view : ClassView) (state : State) : Except Miss ClassEntry × State :=
  match boundEntry image state view.klass with
  | some entry => (.ok entry, state)
  | none => bound image view state

theorem resolveClass_yields (table : Engine.Table) (image : Image) (view : ClassView) :
    Yields table (resolveClass image view) fun before result after =>
      (result, after) = admitted image view before := by
  intro cell
  rw [resolveClass, Operation.finish_bind, Operation.finish_look]
  dsimp only
  unfold admitted
  cases boundEntry image cell.state view.klass with
  | some entry => rfl
  | none => exact bindClass_yields table image view cell

/-! ## Routines -/

/-- The engine provides every routine that the code calls. -/
def Provides (image : Image) (table : Engine.Table) : Prop :=
  ∃ routines, image.library.routines = .ok routines ∧
    ∀ routine ∈ routines, ∃ address, table (.findRoutine routine) = some address

/-- Only what is known of routines differs. -/
def State.Routed (before after : State) : Prop :=
  after = { before with routines := after.routines, linkageDisabled := after.linkageDisabled }

/-- Looking routines up changes nothing, whatever the engine answers. -/
theorem findRoutines_concludes {routines : List String} {asked : List Engine.Request}
    {result : Except Error (List Nat)} {cell last : Cell}
    (concludes : (findRoutines image routines cell).Concludes asked result last) :
    last.state = cell.state := by
  induction routines generalizing asked result last with
  | nil =>
    cases concludes
    rfl
  | cons routine rest ih =>
    rw [findRoutines, Action.bind_apply] at concludes
    obtain ⟨_, found, middle, _, early, late, -⟩ := concludes.parts
    obtain rfl : middle = cell := by
      cases early with
      | ask _ onward =>
        cases onward
        rfl
    cases found with
    | none =>
      cases late
      rfl
    | some address =>
      dsimp only at late
      rw [Action.bind_apply] at late
      obtain ⟨_, others, later, _, onward, ended, -⟩ := late.parts
      have same := ih onward
      cases others <;> cases ended <;> exact same

/-- Linkage goes on only if all routines are there. -/
theorem ensureRoutines_concludes {asked : List Engine.Request} {result : Bool} {cell last : Cell}
    (concludes : (ensureRoutines image cell).Concludes asked result last) :
    cell.state.Routed last.state ∧
      last.state.linkageDisabled = (!result || cell.state.linkageDisabled) ∧
        (result = true → last.state.routines.isSome = true) := by
  rw [ensureRoutines, Action.bind_apply] at concludes
  obtain ⟨_, known, middle, _, early, late, -⟩ := concludes.parts
  obtain ⟨rfl, linked⟩ : middle = cell ∧ known = cell.state.routines.isSome := by
    cases early
    exact ⟨rfl, rfl⟩
  cases known with
  | true =>
    rw [if_pos rfl] at late
    cases late
    exact ⟨rfl, rfl, fun _ => linked.symm⟩
  | false =>
    rw [if_neg Bool.false_ne_true, Action.bind_apply] at late
    obtain ⟨_, outcome, last, _, looked, written, -⟩ := late.parts
    have same : last.state = middle.state := by
      unfold linkRoutines at looked
      cases listed : image.library.routines with
      | error error =>
        rw [listed] at looked
        cases looked
        rfl
      | ok routines =>
        simp only [listed, Action.bind_apply] at looked
        obtain ⟨_, found, later, _, pass, rest, -⟩ := looked.parts
        have same := findRoutines_concludes pass
        cases found <;> cases rest <;> exact same
    cases outcome <;> cases written <;> exact ⟨by rw [← same]; rfl, by simp [← same], by simp⟩

/-- Linked routines are not looked up again. -/
theorem ensureRoutines_linked (table : Engine.Table) {cell : Cell}
    (linked : cell.state.routines.isSome = true) :
    (ensureRoutines image).finish table cell = (true, cell) := by
  rw [ensureRoutines, Operation.finish_bind, Operation.finish_look]
  exact if_pos linked ▸ rfl

theorem findRoutines_provided (table : Engine.Table) (image : Image) {routines : List String}
    (all : ∀ routine ∈ routines, ∃ address, table (.findRoutine routine) = some address)
    (cell : Cell) : ∃ addresses, ((findRoutines image routines).finish table cell).1 = .ok addresses := by
  induction routines generalizing cell with
  | nil => exact ⟨[], rfl⟩
  | cons routine rest ih =>
    obtain ⟨address, found⟩ := all routine List.mem_cons_self
    rw [findRoutines, Operation.finish_bind, Operation.finish_ask, found]
    dsimp only
    rw [Operation.finish_bind]
    obtain ⟨addresses, linked⟩ := ih (fun other member => all other (List.mem_cons_of_mem _ member)) cell
    generalize Operation.finish table _ cell = outcome at linked ⊢
    obtain ⟨result, last⟩ := outcome
    cases result with
    | error error => cases linked
    | ok addresses => exact ⟨_, rfl⟩

/-- If the engine provides all routines linkage goes on. -/
theorem ensureRoutines_provided (provides : Provides image table) (cell : Cell) :
    ((ensureRoutines image).finish table cell).1 = true := by
  obtain ⟨routines, listed, all⟩ := provides
  rw [ensureRoutines, Operation.finish_bind, Operation.finish_look]
  dsimp only
  split
  · rfl
  · obtain ⟨addresses, found⟩ := findRoutines_provided table image all cell
    simp only [Operation.finish_bind, linkRoutines, listed]
    generalize Operation.finish table _ cell = outcome at found ⊢
    obtain ⟨result, last⟩ := outcome
    cases result with
    | error error => cases found
    | ok addresses => rfl

/-! ## Sweeps -/

/-- What a sweep makes of a slot. -/
def swept : Slot.Phase × Option LinkedCode → Slot.Phase × Option LinkedCode
  | (phase, handle) => if handle.any LinkedCode.isStub then (phase, handle) else (.invalidated, handle)

/-- What becomes of a slot whose class can never be linked. -/
def retired : Slot.Phase × Option LinkedCode → Slot.Phase × Option LinkedCode
  | (phase, handle) => if phase = .unresolved then (.invalidated, handle) else (phase, handle)

theorem swept_resolved {slot : Slot.Phase × Option LinkedCode} (resolved : (swept slot).1 = .resolved) :
    slot.1 = .resolved := by
  obtain ⟨phase, handle⟩ := slot
  by_cases isStub : handle.any LinkedCode.isStub = true <;> simp_all [swept]

theorem retired_resolved {slot : Slot.Phase × Option LinkedCode}
    (resolved : (retired slot).1 = .resolved) : slot.1 = .resolved := by
  obtain ⟨phase, handle⟩ := slot
  by_cases unresolved : phase = .unresolved <;> simp_all [retired]

/-- What marking slots means for their phases and handles. -/
theorem Marked.slot? {step : Slot → Slot} {chosen : Nat → Prop}
    {seen : Slot.Phase × Option LinkedCode → Slot.Phase × Option LinkedCode}
    (marked : Marked step chosen before after)
    (same : ∀ slot, ((step slot).phase, (step slot).handle) = seen (slot.phase, slot.handle))
    (codeId : Nat) [Decidable (chosen codeId)] :
    after.slot? codeId =
      (if chosen codeId then (before.slot? codeId).map seen else before.slot? codeId) := by
  split
  · rename_i member
    rw [State.slot?, marked.marked codeId member, State.slot?, Option.map_map, Option.map_map]
    exact congrArg (Option.map · _) (funext same)
  · rename_i absent
    rw [State.slot?, marked.spared codeId absent, State.slot?]

theorem invalidate_swept (slot : Slot) : (slot.invalidate.2.phase, slot.invalidate.2.handle) =
    swept (slot.phase, slot.handle) := by
  obtain ⟨phase, handle, admitted⟩ := slot
  unfold Slot.invalidate swept
  by_cases isStub : handle.any LinkedCode.isStub = true <;> cases phase <;> simp [isStub]

theorem retire_retired (slot : Slot) : (slot.retire.2.phase, slot.retire.2.handle) =
    retired (slot.phase, slot.handle) := by
  obtain ⟨phase, handle, admitted⟩ := slot
  cases phase <;> rfl

/-- The slots that a sweep of the dependents of a class goes through. -/
def dependentsOf (image : Image) (entry : ClassEntry) : List Nat :=
  (image.library.dependentsOf entry.record).toOption.getD []

theorem mem_dependentsOf : codeId ∈ dependentsOf image entry ↔ image.Depends entry codeId := by
  unfold dependentsOf Image.Depends
  cases image.library.dependentsOf entry.record <;> simp [Except.toOption]

/-- What becomes of a slot when the dependents of a class are swept and its own code is
retired. -/
def castOut (image : Image) (entry : ClassEntry) (codeId : Nat)
    (slot : Slot.Phase × Option LinkedCode) : Slot.Phase × Option LinkedCode :=
  (if codeId ∈ image.codesOf entry.classId then retired else id)
    ((if codeId ∈ dependentsOf image entry then swept else id) slot)

section CastOut

variable {slot : Slot.Phase × Option LinkedCode} {handle : Option LinkedCode}

theorem castOut_apart (apart : ¬(codeId ∈ dependentsOf image entry ∨
    codeId ∈ image.codesOf entry.classId)) : castOut image entry codeId slot = slot := by
  obtain ⟨listed, own⟩ := not_or.mp apart
  simp [castOut, listed, own]

theorem castOut_stub (isStub : handle.any LinkedCode.isStub = true) :
    castOut image entry codeId (.resolved, handle) = (.resolved, handle) := by
  unfold castOut
  split <;> split <;> simp [swept, retired, isStub]

theorem castOut_invalidated :
    castOut image entry codeId (.invalidated, handle) = (.invalidated, handle) := by
  unfold castOut
  split <;> split <;> simp [swept, retired]

theorem castOut_free (involved : codeId ∈ dependentsOf image entry ∨
    codeId ∈ image.codesOf entry.classId) :
    castOut image entry codeId (.unresolved, none) = (.invalidated, none) := by
  unfold castOut
  by_cases listed : codeId ∈ dependentsOf image entry
  · rw [if_pos listed]
    split <;> simp [swept, retired]
  · simp [retired, listed, involved.resolve_left listed]

theorem castOut_method {code : LinkedCode} (method : code.isStub = false)
    (listed : codeId ∈ dependentsOf image entry) :
    castOut image entry codeId (.resolved, some code) = (.invalidated, some code) := by
  unfold castOut
  rw [if_pos listed]
  split <;> simp [swept, retired, method]

theorem castOut_resolved (resolved : (castOut image entry codeId slot).1 = .resolved) :
    slot.1 = .resolved := by
  unfold castOut at resolved
  split at resolved <;> split at resolved
  · exact swept_resolved (retired_resolved resolved)
  · exact retired_resolved resolved
  · exact swept_resolved resolved
  · exact resolved

end CastOut

/-- The dependents of a class were swept and its own code was retired. -/
structure Outcast (image : Image) (entry : ClassEntry) (before after : State) : Prop where
  frame : before.Reslotted after
  slots : ∀ codeId, after.slot? codeId = (before.slot? codeId).map (castOut image entry codeId)

theorem Casts.outcast {asked : List Engine.Request} (casts : Casts image entry before asked after) :
    Outcast image entry before after := by
  obtain ⟨middle, report, withdrawal, marked⟩ := casts
  refine ⟨?_, fun codeId => ?_⟩
  · rw [State.Reslotted, marked.frame, withdrawal.marked.frame]
  · have listed : image.Depends entry codeId ↔ codeId ∈ dependentsOf image entry :=
      mem_dependentsOf.symm
    have first := (withdrawal.marked.congr fun other => mem_dependentsOf.symm).slot?
      invalidate_swept codeId
    rw [marked.slot? retire_retired codeId, first]
    cases before.slot? codeId with
    | none => simp
    | some slot =>
      by_cases listed : codeId ∈ dependentsOf image entry <;>
        by_cases own : codeId ∈ image.codesOf entry.classId <;> simp [castOut, listed, own]

theorem afterMiss_yields (table : Engine.Table) (image : Image) (view : ClassView) (miss : Miss) :
    Yields table (afterMiss image view miss) fun before _ after =>
      (∃ entry, isShapeMiss miss = true ∧ lookupClass image view.name = .ok (some entry) ∧
        Outcast image entry before after) ∨
      (∀ entry, isShapeMiss miss = true → lookupClass image view.name ≠ .ok (some entry)) ∧
        after = before := by
  intro cell
  rcases afterMiss_casts table image view miss cell with ⟨entry, shape, found, casts⟩ | ⟨other, same, -⟩
  · exact .inl ⟨entry, shape, found, casts.outcast⟩
  · exact .inr ⟨other, same⟩

/-! ## Loads -/

/-- The methods that the blob holds for a class. -/
def methods (image : Image) (entry : ClassEntry) : List CodeRecord :=
  (image.library.methodsOf entry.record).toOption.getD []

/-- The slots that a class publishes its methods into. -/
def OwnSlot (image : Image) (entry : ClassEntry) (codeId : Nat) : Prop :=
  ∃ record ∈ methods image entry, slotNumber record = codeId

/-- What loading a live class comes to. -/
inductive Loading (image : Image) (table : Engine.Table) (view : ClassView) :
    State → Except Miss Nat → State → Prop where
  | disabled {state : State} (disabled : state.linkageDisabled = true) :
    Loading image table view state (.error .linkageDisabled) state
  | missed {before after : State} {miss : Miss} (enabled : before.linkageDisabled = false)
    (refused : admitted image view before = (.error miss, after))
    (minor : isShapeMiss miss = true → ∀ entry, lookupClass image view.name ≠ .ok (some entry)) :
    Loading image table view before (.error miss) after
  | outcast {before middle after : State} {miss : Miss} {entry : ClassEntry}
    (enabled : before.linkageDisabled = false)
    (refused : admitted image view before = (.error miss, middle))
    (shape : isShapeMiss miss = true) (found : lookupClass image view.name = .ok (some entry))
    (outcast : Outcast image entry middle after) :
    Loading image table view before (.error miss) after
  | halted {before middle after : State} {entry : ClassEntry}
    (enabled : before.linkageDisabled = false)
    (passed : admitted image view before = (.ok entry, middle))
    (routed : middle.Routed after) (lacking : ¬Provides image table) :
    Loading image table view before (.error .linkageDisabled) after
  | loaded {before middle later after : State} {entry : ClassEntry} {count : Nat}
    (enabled : before.linkageDisabled = false)
    (passed : admitted image view before = (.ok entry, middle))
    (routed : middle.Routed later) (kept : later.linkageDisabled = middle.linkageDisabled)
    (loads : Loads image table entry view (OwnSlot image entry) (methods image entry) later after) :
    Loading image table view before (.ok count) after

/-- Unless linkage is disabled a load goes on with what matching its class comes to. -/
theorem loadClass_finish (table : Engine.Table) (view : ClassView) {cell : Cell}
    (enabled : cell.state.linkageDisabled = false) :
    (loadClass image view).finish table cell =
      (finishLoad image view ((resolveClass image view).finish table cell).1).finish table
        ((resolveClass image view).finish table cell).2 := by
  obtain ⟨outcome, middle, ran⟩ := resolveClass_silent image view cell
  simp only [Operation.finish, loadClass_enabled enabled ran, ran]
  rfl

/-- A live class that passes the gate has its methods published. -/
theorem finishLoad_linked (view : ClassView) (entry : ClassEntry) {middle later : Cell}
    (ensured : (ensureRoutines image).finish table middle = (true, later)) :
    ((finishLoad image view (.ok entry)).finish table middle).1 =
        .ok ((publishMethods image entry view (methods image entry)).finish table later).1 ∧
      ((finishLoad image view (.ok entry)).finish table middle).2.state =
        ((publishMethods image entry view (methods image entry)).finish table later).2.state := by
  rw [finishLoad, Operation.finish_bind, ensured]
  dsimp only
  rw [if_pos rfl]
  unfold methods
  cases image.library.methodsOf entry.record with
  | error error => exact ⟨rfl, rfl⟩
  | ok records =>
    dsimp only [Except.toOption, Option.getD_some]
    rw [Operation.finish_bind]
    exact ⟨rfl, rfl⟩

theorem loadClass_yields (labelled : image.Labelled) (table : Engine.Table) (view : ClassView) :
    Yields table (loadClass image view) (Loading image table view) := by
  intro cell
  by_cases disabled : cell.state.linkageDisabled = true
  · rw [Operation.finish, loadClass_disabled disabled]
    exact .disabled disabled
  have enabled := Bool.not_eq_true _ ▸ disabled
  rw [loadClass_finish table view enabled]
  have resolved := resolveClass_yields table image view cell
  generalize Operation.finish table _ cell = outcome at resolved ⊢
  obtain ⟨miss | entry, middle⟩ := outcome
  · dsimp only [finishLoad]
    rw [Operation.finish_bind]
    rcases afterMiss_yields table image view miss middle with
      ⟨entry, shape, found, outcast⟩ | ⟨other, same⟩
    · exact .outcast enabled resolved.symm shape found outcast
    · dsimp only [Operation.finish_pure]
      rw [same]
      exact .missed enabled resolved.symm fun shape entry found => other entry shape found
  · obtain ⟨routed, kept, -⟩ := ensureRoutines_concludes
      (Dialogue.Concludes.of_table (S := Engine.signature) table (ensureRoutines image middle))
    have provided : Provides image table → _ := fun all => ensureRoutines_provided all middle
    have ended : (ensureRoutines image middle).conclude table =
        (ensureRoutines image).finish table middle := rfl
    rw [ended] at routed kept
    rcases ensured : (ensureRoutines image).finish table middle with ⟨_ | _, later⟩
    · rw [ensured] at routed provided
      dsimp only [finishLoad]
      rw [Operation.finish_bind, ensured]
      exact .halted enabled resolved.symm routed fun all => Bool.false_ne_true (provided all)
    · rw [ensured] at routed kept
      have own : ∀ record ∈ methods image entry, OwnSlot image entry (slotNumber record) :=
        fun record member => ⟨record, member, rfl⟩
      obtain ⟨result, state⟩ := finishLoad_linked view entry ensured
      rw [result, state]
      exact .loaded enabled resolved.symm routed kept
        (publishMethods_yields labelled table entry view own later).loads

end Precompiled.Heap
