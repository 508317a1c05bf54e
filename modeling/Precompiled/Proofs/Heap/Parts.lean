import Precompiled.Proofs.Heap.Obedience

/-! What the operations on a heap are put together from. There are few parts: looking,
reporting, counting, asking, resolving a slot of a table, publishing, and taking one
slot out of use. That an operation is made of these parts is proved once, along its
text; a property that the parts have, and that sequences inherit, is then a property
of every operation. -/
namespace Precompiled

/-- Updating slots with values that are at hand asks nothing. What storing a table
preserves is preserved. -/
theorem Got.updateSlots_done {S : Signature} {σ α : Type} [DecidableEq α] {part : Part (Got α) σ}
    {kept : σ → Prop} (sets : ∀ state table, kept state → kept (part.set table state))
    (value : Nat → α → Option α) (indexes : List Nat) {state : σ} (held : kept state) :
    ∃ visits after, Got.updateSlots part
      (fun index seen => (pure (value index seen) : Action S σ (Option α))) indexes state =
        .done visits after ∧ kept after := by
  induction indexes generalizing state with
  | nil => exact ⟨_, _, rfl, held⟩
  | cons index rest ih =>
    simp only [updateSlots, updateSlot, Action.bind_apply, Action.read_apply, Dialogue.bind_done]
    cases (part.get state).get index with
    | none =>
      obtain ⟨visits, after, ran, final⟩ := ih held
      simp only [Action.pure_apply, Dialogue.bind_done, ran]
      exact ⟨_, _, rfl, final⟩
    | some seen =>
      obtain ⟨visits, after, ran, final⟩ :=
        ih (sets state (replaceIf index seen (value index seen) (part.get state)) held)
      simp only [Action.bind_apply, Action.pure_apply, Dialogue.bind_done, Action.within,
        Action.update_apply, Dialogue.within, ran]
      exact ⟨_, _, rfl, final⟩

namespace Heap

variable {image : Image}

/-! ## Parts -/

/-- What an operation may do that many operations do not. -/
structure Licence where
  /-- Publish code. -/
  publishes : Prop
  /-- Change tables of references otherwise than by resolving a slot. -/
  rewrites : Prop
  /-- Link the routines of the engine. -/
  links : Prop

/-- Every licence there is. -/
def Licence.full : Licence :=
  ⟨True, True, True⟩

/-- The licence that a call needs. -/
def Call.needs : Call → Licence
  | .loadClass _ => .full
  | .publish _ => ⟨True, False, False⟩
  | .resolveClass _ | .unload _ | .updateObjects _ => ⟨False, True, False⟩
  | _ => ⟨False, False, False⟩

/-- What one licence permits, the other one permits too. -/
structure Licence.Within (less more : Licence) : Prop where
  publishes : less.publishes → more.publishes
  rewrites : less.rewrites → more.rewrites
  links : less.links → more.links

/-- A change of counters that leaves those of methods alone. -/
def BesideMethods (bump : Counters → Counters) : Prop :=
  ∀ counters, (bump counters).methodsPublished = counters.methodsPublished ∧
    (bump counters).methodsInvalidated = counters.methodsInvalidated

/-- Retires one slot. -/
def retireCode (codeId : Nat) : Operation Unit := do
  if (← Operation.changeSlot codeId Slot.retire) = some true then countInvalidated

/-- Only tables of references and loaders differ. -/
def Cell.Rewritten (before after : Cell) : Prop :=
  after = { before with
    state := { before.state with
      loaders := after.state.loaders
      metaspace := after.state.metaspace
      objects := after.state.objects } }

/-- An operation that is put together from parts within a licence. -/
inductive Made (image : Image) (licence : Licence) : {α : Type} → Operation α → Prop where
  | pure {α : Type} (value : α) : Made image licence (pure value : Operation α)
  | bind {α β : Type} {first : Operation α} {next : α → Operation β}
    (head : Made image licence first) (tail : ∀ value, Made image licence (next value)) :
    Made image licence (first >>= next)
  | look {α : Type} (view : State → α) : Made image licence (Operation.look view)
  | note (level : Level) (topic : Topic) (text : String) :
    Made image licence (Operation.note level topic text)
  | count {bump : Counters → Counters} (beside : BesideMethods bump) :
    Made image licence (Operation.count bump)
  | bindings {step : State → State}
    (only : ∀ state, step state = { state with bindings := (step state).bindings }) :
    Made image licence (Operation.alter step)
  | counted (code : LinkedCode) : Made image licence (admitCode image code)
  | invalidate (codeId : Nat) : Made image licence (invalidateCode codeId)
  | retire (codeId : Nat) : Made image licence (retireCode codeId)
  | metaspace {index : Nat} {name : String} (named : StandsFor image index name)
    (loader : LoaderId) :
    Made image licence
      (Got.getOrResolve Cell.metaspace index (Operation.ask (.findClass name loader)))
  | metadata {codeId localIndex index : Nat} {descriptor : String}
    (named : metadataSlot image codeId localIndex = .ok (descriptor, index))
    (holder : ClassView) :
    Made image licence
      (Got.getOrResolve Cell.metadata index (Operation.ask (.resolveMetadata descriptor holder)))
  | object {index : Nat} {descriptor : String}
    (named : image.library.objectName index = .ok descriptor) :
    Made image licence
      (Got.getOrResolve Cell.objects index (Operation.ask (.resolveObject descriptor)))
  | findMethod (holder : ClassRef) (name : MethodName) :
    Made image licence (Operation.ask (.findMethod holder name))
  | publish (permitted : licence.publishes) (code : LinkedCode) :
    Made image licence (publish image code)
  | rewrite (permitted : licence.rewrites) {α : Type} {operation : Operation α}
    (silent : ∀ cell, ∃ value after, operation cell = .done value after ∧ cell.Rewritten after) :
    Made image licence operation
  | findRoutine (permitted : licence.links) (name : String) :
    Made image licence (Operation.ask (.findRoutine name))
  | gate (permitted : licence.links) {step : State → State}
    (only : ∀ state, step state =
      { state with
        routines := (step state).routines, linkageDisabled := (step state).linkageDisabled }) :
    Made image licence (Operation.alter step)

variable {licence : Licence}

/-! ## Taking code out of use -/

theorem invalidateCodes_made (codeIds : List Nat) :
    Made image licence (invalidateCodes codeIds) := by
  induction codeIds with
  | nil => exact .pure _
  | cons codeId rest ih => exact .bind (.invalidate codeId) fun _ => .bind ih fun _ => .pure _

theorem invalidateDependents_made (entry : ClassEntry) :
    Made image licence (invalidateDependents image entry) := by
  unfold invalidateDependents
  cases image.library.dependentsOf entry.record with
  | error error => exact .bind (.note _ _ _) fun _ => .pure _
  | ok dependents =>
    refine .bind (invalidateCodes_made dependents) fun report => ?_
    split
    · exact .bind (.note _ _ _) fun _ => .pure _
    · exact .pure _

theorem invalidateSelected_made (select : Slot.Phase → Bool) (codeIds : List Nat) :
    Made image licence (invalidateSelected select codeIds) := by
  induction codeIds with
  | nil => exact .pure _
  | cons codeId rest ih =>
    refine .bind (.look _) fun selected => ?_
    cases selected with
    | true => exact .bind (.invalidate codeId) fun _ => .bind ih fun _ => .pure _
    | false => exact .bind (.pure _) fun _ => .bind ih fun _ => .pure _

/-- Slots are retired one by one. -/
theorem retireCodes_cons (codeId : Nat) (rest : List Nat) :
    retireCodes (codeId :: rest) = (do retireCode codeId; retireCodes rest) := by
  funext cell
  simp only [retireCodes, retireCode, Operation.changeSlot, Operation.change, Action.bind_apply,
    Action.step_apply, Dialogue.bind_done]
  cases found : cell.state.slots[codeId]? with
  | none => rfl
  | some slot =>
    dsimp only
    split <;> rfl

theorem retireCodes_made (codeIds : List Nat) : Made image licence (retireCodes codeIds) := by
  induction codeIds with
  | nil => exact .pure _
  | cons codeId rest ih =>
    rw [retireCodes_cons]
    exact .bind (.retire codeId) fun _ => ih

theorem flush_made (klass : ClassRef) : Made image licence (flush image klass) := by
  refine .bind (.look _) fun entry => ?_
  cases entry with
  | none => exact .pure _
  | some entry =>
    refine .bind (.bindings fun _ => rfl) fun _ => ?_
    refine .bind (invalidateDependents_made entry) fun dependents => ?_
    refine .bind (invalidateSelected_made _ _) fun own => ?_
    exact .bind (.note _ _ _) fun _ => .pure _

/-! ## Resolving references -/

theorem findClass_made (name : String) : Made image licence (findClass image name) := by
  unfold findClass
  cases lookupClass image name with
  | ok entry => exact .pure _
  | error error => exact .bind (.note _ _ _) fun _ => .pure _

theorem sweep_made (name : String) : Made image licence (sweep image name) := by
  refine .bind (findClass_made name) fun found => ?_
  cases found with
  | none => exact .pure _
  | some entry => exact invalidateDependents_made entry

theorem resolveMetaspace_made (index : Nat) (loader : LoaderId) :
    Made image licence (resolveMetaspace image index loader) := by
  unfold resolveMetaspace
  cases named : image.library.metaspaceName index with
  | error error => exact .pure _
  | ok name => exact .bind (.metaspace (.inl named) loader) fun value => .pure _

theorem resolveMetadata_made (codeId localIndex : Nat) (holder : ClassView) :
    Made image licence (resolveMetadata image codeId localIndex holder) := by
  unfold resolveMetadata
  cases named : metadataSlot image codeId localIndex with
  | error error => exact .pure _
  | ok slot => exact .bind (.metadata named holder) fun value => .pure _

theorem resolveObject_made (index : Nat) : Made image licence (resolveObject image index) := by
  unfold resolveObject
  cases named : image.library.objectName index with
  | error error => exact .pure _
  | ok descriptor => exact .bind (.object named) fun value => .pure _

theorem forEach_made {α β : Type} {step : α → Operation (Except Error β)}
    (each : ∀ item, Made image licence (step item)) (items : List α) :
    Made image licence (forEach step items) := by
  induction items with
  | nil => exact .pure _
  | cons item rest ih =>
    refine .bind (each item) fun outcome => ?_
    cases outcome with
    | error error => exact .pure _
    | ok value => exact ih

theorem resolveReferences_made (codeId : Nat) (detail : Blob.CodeDetail) (view : ClassView) :
    Made image licence (resolveReferences image codeId detail view) := by
  refine .bind (forEach_made (fun index => resolveMetaspace_made _ _) _) fun classes => ?_
  cases classes with
  | error error => exact .pure _
  | ok _ =>
    refine .bind (forEach_made (fun index => resolveMetadata_made _ _ _) _) fun metadata => ?_
    cases metadata with
    | error error => exact .pure _
    | ok _ => exact forEach_made (fun index => resolveObject_made _) _

theorem classFromSlot_made (name : String) (view : ClassView) :
    Made image licence (classFromSlot image name view) := by
  unfold classFromSlot findClass
  cases found : lookupClass image name with
  | error error =>
    have warned : Made image licence (do
        Operation.note .warn .classes s!"bad class record for {name}: {error.message}"
        return none : Operation (Option ClassRef)) := .bind (.note _ _ _) fun _ => .pure _
    exact warned
  | ok outcome =>
    cases outcome with
    | none => exact .pure _
    | some entry =>
      simp only [Action.pure_bind]
      cases slot : natural? entry.record.gotIndex with
      | none => exact .pure _
      | some index => exact .metaspace (.inr ⟨entry, found, slot⟩) view.loader

/-! ## Linking classes -/

section Classes

variable {view : ClassView}

/-- Publishing a method asks for its live counterpart, resolves what it refers to and
publishes its code. -/
theorem publishMethod_made (permitted : licence.publishes) (entry : ClassEntry)
    (record : Blob.CodeRecord) : Made image licence (publishMethod image entry view record) := by
  refine .bind (.look _) fun phase => ?_
  split
  · exact .pure _
  cases image.library.methodName record with
  | error error => exact .pure _
  | ok name =>
    refine .bind (.findMethod view.klass name) fun live => ?_
    cases live with
    | none => exact .bind (.note _ _ _) fun _ => .pure _
    | some live =>
      dsimp only
      split
      · exact .pure _
      cases image.library.detailOf record with
      | error error => exact .pure _
      | ok detail =>
        refine .bind (resolveReferences_made _ detail view) fun resolved => ?_
        cases resolved with
        | error error => exact .pure _
        | ok _ =>
          dsimp only
          cases image.place record detail name live.method view.klass entry.classId with
          | error error => exact .pure _
          | ok code =>
            refine .bind (.publish permitted code) fun publication => ?_
            split <;> exact .pure _

/-- Publishing counts what was published and reports failures in between. -/
theorem publishMethods_made (permitted : licence.publishes) (entry : ClassEntry)
    (records : List Blob.CodeRecord) :
    Made image licence (publishMethods image entry view records) := by
  induction records with
  | nil => exact .pure _
  | cons record rest ih =>
    have onward : ∀ own : Nat, Made image licence
        (do return own + (← publishMethods image entry view rest) : Operation Nat) :=
      fun own => .bind ih fun _ => .pure _
    refine .bind (publishMethod_made permitted entry record) fun published => ?_
    cases published with
    | ok made => cases made <;> exact .bind (.pure _) onward
    | error error =>
      have report : ∀ text : String, Made image licence (do
          Operation.note .debug .methods text
          let own ← pure 0
          return own + (← publishMethods image entry view rest) : Operation Nat) :=
        fun text => .bind (.note .debug .methods text) fun _ => .bind (.pure 0) onward
      cases error with
      | unresolved site reference =>
        exact .bind (.count fun counters => ⟨rfl, rfl⟩) fun _ => report _
      | _ => exact report _

theorem afterMiss_made (view : ClassView) (miss : Miss) :
    Made image licence (afterMiss image view miss) := by
  unfold afterMiss
  split
  · refine .bind (findClass_made view.name) fun found => ?_
    cases found with
    | none => exact .pure _
    | some entry => exact .bind (invalidateDependents_made entry) fun _ => retireCodes_made _
  · exact .pure _

/-- Only who sits where differs. -/
def State.Reseated (before after : State) : Prop :=
  after = { before with loaders := after.loaders, metaspace := after.metaspace }

theorem bindLoader_reseated (classId : Nat) (loader : LoaderId) (state : State) :
    state.Reseated (state.bindLoader classId loader).2 := by
  unfold State.bindLoader
  split <;> rfl

theorem claimPlace_reseated (entry : ClassEntry) (view : ClassView) (state : State) :
    state.Reseated (claimPlace entry view state).2 := by
  have bound := bindLoader_reseated entry.classId view.loader state
  unfold claimPlace
  split
  · rfl
  split
  · rfl
  dsimp only
  split
  · exact bound
  · rw [State.Reseated, bound]

/-- Claiming a place asks nothing, and only the loaders and the metaspace change. -/
theorem claimPlace_made (permitted : licence.rewrites) (entry : ClassEntry) :
    Made image licence (Operation.change (claimPlace entry view)) := by
  refine .rewrite permitted fun cell => ⟨(claimPlace entry view cell.state).1,
    { cell with state := (claimPlace entry view cell.state).2 }, rfl, ?_⟩
  rw [Cell.Rewritten, claimPlace_reseated entry view cell.state]

theorem gate_made (permitted : licence.rewrites) (entry : ClassEntry) :
    Made image licence (gate image entry view) := by
  unfold gate
  split
  · exact .pure _
  split
  · exact .bind (.count fun counters => ⟨rfl, rfl⟩) fun _ => .pure _
  split
  · exact .pure _
  refine .bind (claimPlace_made permitted entry) fun claimed => ?_
  cases claimed with
  | true => exact .pure _
  | false => exact .bind (.count fun counters => ⟨rfl, rfl⟩) fun _ => .pure _

theorem resolveClass_made (permitted : licence.rewrites) (view : ClassView) :
    Made image licence (resolveClass image view) := by
  refine .bind (.look _) fun bound => ?_
  cases bound with
  | some entry => exact .pure _
  | none =>
    refine .bind (.count fun counters => ⟨rfl, rfl⟩) fun _ => ?_
    refine .bind (findClass_made view.name) fun found => ?_
    cases found with
    | none => exact .pure _
    | some entry =>
      refine .bind (gate_made permitted entry) fun miss => ?_
      cases miss with
      | some miss => exact .bind (.note _ _ _) fun _ => .pure _
      | none =>
        refine .bind (.bindings fun _ => rfl) fun _ => ?_
        refine .bind (.count fun counters => ⟨rfl, rfl⟩) fun _ => ?_
        exact .bind (.note _ _ _) fun _ => .pure _

theorem findRoutines_made (permitted : licence.links) (names : List String) :
    Made image licence (findRoutines image names) := by
  induction names with
  | nil => exact .pure _
  | cons name rest ih =>
    refine .bind (.findRoutine permitted name) fun found => ?_
    cases found with
    | none => exact .pure _
    | some address =>
      refine .bind ih fun others => ?_
      cases others <;> exact .pure _

theorem ensureRoutines_made (permitted : licence.links) :
    Made image licence (ensureRoutines image) := by
  have linked : Made image licence (linkRoutines image) := by
    unfold linkRoutines
    cases image.library.routines with
    | error error => exact .pure _
    | ok names =>
      refine .bind (findRoutines_made permitted names) fun found => ?_
      cases found with
      | error error => exact .pure _
      | ok addresses => exact .bind (.note _ _ _) fun _ => .pure _
  refine .bind (.look _) fun known => ?_
  cases known with
  | true => exact .pure _
  | false =>
    refine .bind linked fun outcome => ?_
    cases outcome with
    | ok addresses => exact .bind (.gate permitted fun _ => rfl) fun _ => .pure _
    | error error =>
      exact .bind (.note _ _ _) fun _ => .bind (.gate permitted fun _ => rfl) fun _ => .pure _

theorem finishLoad_made (publishes : licence.publishes) (links : licence.links)
    (outcome : Except Miss ClassEntry) : Made image licence (finishLoad image view outcome) := by
  cases outcome with
  | error miss => exact .bind (afterMiss_made view miss) fun _ => .pure _
  | ok entry =>
    refine .bind (ensureRoutines_made links) fun linked => ?_
    cases linked with
    | false => exact .pure _
    | true =>
      cases image.library.methodsOf entry.record with
      | error error => exact .bind (.note _ _ _) fun _ => .pure _
      | ok records => exact .bind (publishMethods_made publishes entry records) fun _ => .pure _

theorem loadClass_made (within : Licence.full.Within licence) (view : ClassView) :
    Made image licence (loadClass image view) := by
  refine .bind (.look _) fun disabled => ?_
  split
  · exact .pure _
  refine .bind (resolveClass_made (within.rewrites trivial) view) fun outcome => ?_
  have made : Made image licence (finishLoad image view outcome) :=
    finishLoad_made (within.publishes trivial) (within.links trivial) outcome
  cases outcome <;> exact made

end Classes

/-! ## Calls -/

/-- Clearing the slots of a class asks nothing and changes only the metaspace. -/
theorem clearing_done (klass : ClassRef) (cell : Cell) : ∃ visits after,
    (Got.updateEach Cell.metaspace fun _ value =>
      (pure (if value = klass then none else some value) : Operation (Option ClassRef))) cell =
        .done visits after ∧
      after = { cell with state := { cell.state with metaspace := after.state.metaspace } } :=
  Got.updateSlots_done (fun _ _ only => by rw [only]; rfl) _ _ rfl

/-- Moving objects asks nothing and changes only the table of objects. -/
theorem moving_done (moves : List (ObjectRef × Option ObjectRef)) (cell : Cell) :
    ∃ visits after, updateObjects (fun object =>
      (pure (Got.moved moves object) : Operation (Option ObjectRef))) cell = .done visits after ∧
        after = { cell with state := { cell.state with objects := after.state.objects } } := by
  obtain ⟨visits, after, ran, only⟩ : ∃ visits after,
      (Got.updateEach Cell.objects fun _ object =>
        (pure (Got.moved moves object) : Operation (Option ObjectRef))) cell =
          .done visits after ∧
        after = { cell with state := { cell.state with objects := after.state.objects } } :=
    Got.updateSlots_done (fun _ _ only => by rw [only]; rfl) _ _ rfl
  simp only [updateObjects, Action.bind_apply, ran]
  exact ⟨_, _, rfl, only⟩

theorem updateObjects_made (permitted : licence.rewrites)
    (moves : List (ObjectRef × Option ObjectRef)) :
    Made image licence (updateObjects fun object =>
      (pure (Got.moved moves object) : Operation (Option ObjectRef))) := by
  refine .rewrite permitted fun cell => ?_
  obtain ⟨visits, after, ran, only⟩ := moving_done moves cell
  exact ⟨visits, after, ran, by rw [only]; rfl⟩

/-- What unloading a class does after its binding and its slots are gone. -/
def finishUnload (image : Image) : Option ClassEntry → Operation SweepReport
  | none => return {}
  | some entry => do
    let dependents ← invalidateDependents image entry
    let own ← invalidateClass image entry.classId fun phase => phase != .invalidated
    let report := dependents.merge own
    Operation.note .debug .deoptimization
      (s!"unloaded class {entry.classId} of {image.library.name}: " ++
        s!"{report.invalidated} methods invalidated")
    return report

theorem finishUnload_made (entry : Option ClassEntry) :
    Made image licence (finishUnload image entry) := by
  cases entry with
  | none => exact .pure _
  | some entry =>
    refine .bind (invalidateDependents_made entry) fun dependents => ?_
    refine .bind (invalidateSelected_made _ _) fun own => ?_
    exact .bind (.note _ _ _) fun _ => .pure _

/-- Unloading goes on where clearing the slots has ended. -/
theorem unload_done {klass : ClassRef} {cell after : Cell} {visits : List (Nat × ClassRef)}
    (cleared : (Got.updateEach Cell.metaspace fun _ value =>
        (pure (if value = klass then none else some value) : Operation (Option ClassRef)))
      { cell with state := cell.state.unbind klass } = .done visits after) :
    unload image klass cell = finishUnload image (entryOf image cell.state klass) after := by
  simp only [unload, Operation.look, Operation.alter, Action.bind_apply, Action.read_apply,
    Action.update_apply, Dialogue.bind_done, cleared]
  cases entryOf image cell.state klass <;> rfl

theorem unload_made (permitted : licence.rewrites) (klass : ClassRef) :
    Made image licence (unload image klass) := by
  refine .bind (.look _) fun entry => ?_
  refine .bind (.bindings fun _ => rfl) fun _ => ?_
  refine .bind (.rewrite permitted fun cell => ?_) fun _ => ?_
  · obtain ⟨visits, after, ran, only⟩ := clearing_done klass cell
    exact ⟨visits, after, ran, by rw [only]; rfl⟩
  have made : Made image licence (finishUnload image entry) := finishUnload_made entry
  cases entry <;> exact made

/-- Every call is made of the parts, within any licence that permits what it needs. -/
theorem perform_made {call : Call} (within : call.needs.Within licence) :
    Made image licence (perform image call) := by
  cases call with
  | loadClass view => exact loadClass_made within view
  | resolveClass view => exact resolveClass_made (within.rewrites trivial) view
  | findClass name => exact findClass_made name
  | classFromSlot name view => exact classFromSlot_made name view
  | resolveMetaspace index loader => exact resolveMetaspace_made index loader
  | resolveMetadata codeId localIndex holder => exact resolveMetadata_made codeId localIndex holder
  | resolveObject index => exact resolveObject_made index
  | updateObjects moves => exact updateObjects_made (within.rewrites trivial) moves
  | publish code => exact .publish (within.publishes trivial) code
  | admitCode code => exact .counted code
  | sweep name => exact sweep_made name
  | sweepEntry entry => exact invalidateDependents_made entry
  | flush klass => exact flush_made klass
  | unload klass => exact unload_made (within.rewrites trivial) klass

end Heap

end Precompiled
