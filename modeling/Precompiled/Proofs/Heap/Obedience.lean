import Precompiled.Proofs.Heap.Rules
import Precompiled.Proofs.Outcome

/-! Every task of a heap keeps to its customs: all it ever does is a row of the
changes listed for it. What holds of a heap throughout all courses is proved once
per change and never by going through the operations again. -/
namespace Precompiled.Heap

variable {image : Image} {rely : State → State → Prop}

/-! ## Taking code out of use -/

theorem invalidateCode_follows (codeId : Nat) :
    (invalidateCode codeId).Follows (revokeConduct image rely) :=
  obeys_invalidateCode (fun _ _ _ revoked => revoked) (fun _ _ _ deoptimized =>
    .deoptimize deoptimized) (fun _ _ => trivial) fun _ _ _ _ => trivial

theorem invalidateCodes_follows (codeIds : List Nat) :
    (invalidateCodes codeIds).Follows (revokeConduct image rely) := by
  induction codeIds with
  | nil => exact Action.follows_pure _
  | cons codeId rest ih =>
    refine Action.Follows.bind (invalidateCode_follows codeId) fun report => ?_
    exact Action.Follows.bind ih fun others => Action.follows_pure _

theorem invalidateDependents_follows (entry : ClassEntry) :
    (invalidateDependents image entry).Follows (revokeConduct image rely) := by
  unfold invalidateDependents
  cases image.library.dependentsOf entry.record with
  | error error => exact Action.Follows.bind (follows_note _ _ _) fun _ => Action.follows_pure _
  | ok dependents =>
    refine Action.Follows.bind (invalidateCodes_follows dependents) fun report => ?_
    split
    · exact Action.Follows.bind (follows_note _ _ _) fun _ => Action.follows_pure _
    · exact Action.follows_pure _

theorem invalidateSelected_follows (select : Slot.Phase → Bool) (codeIds : List Nat) :
    (invalidateSelected select codeIds).Follows (revokeConduct image rely) := by
  induction codeIds with
  | nil => exact Action.follows_pure _
  | cons codeId rest ih =>
    have onward : ∀ report : SweepReport,
        (do return report.merge (← invalidateSelected select rest) : Operation SweepReport).Follows
          (revokeConduct image rely) :=
      fun report => Action.Follows.bind ih fun others => Action.follows_pure _
    refine Action.Follows.bind (follows_look _) fun selected => ?_
    cases selected with
    | false => exact Action.Follows.bind (Action.follows_pure _) onward
    | true => exact Action.Follows.bind (invalidateCode_follows codeId) onward

theorem retireCodes_follows (codeIds : List Nat) :
    (retireCodes codeIds).Follows (revokeConduct image rely) := by
  induction codeIds with
  | nil => exact Action.follows_pure _
  | cons codeId rest ih =>
    have retired : (Operation.changeSlot codeId Slot.retire).Follows (revokeConduct image rely) :=
      follows_changeSlot fun _ _ _ found => .retire found
    refine Action.Follows.bind retired fun outcome => ?_
    split
    · exact Action.Follows.bind (follows_count _) fun _ => ih
    · exact ih

/-- What keeps to the conduct of taking code out of use may be part of any
call. -/
theorem revoked_within_call {α : Type} {operation : Operation α} {call : Call}
    (follows : operation.Follows (revokeConduct image rely)) :
    operation.Follows (callConduct image call rely) := by
  intro heard cell
  refine (follows heard cell).loosen ?_ ?_ fun _ _ kept => kept
  · rintro heard before after (same | revoked)
    · exact .inl same
    · exact .inr (.revoke revoked)
  · intro heard request before after asked
    exact asked.widen fun code impossible => impossible.elim

theorem flush_follows (klass : ClassRef) :
    (flush image klass).Follows (callConduct image (.flush klass) rely) := by
  refine Action.Follows.bind (follows_look _) fun entry => ?_
  cases entry with
  | none => exact Action.follows_pure _
  | some entry =>
    refine Action.Follows.bind (follows_alter fun _ _ => .unbind (.inl rfl)) fun _ => ?_
    refine Action.Follows.bind (revoked_within_call (invalidateDependents_follows entry))
      fun dependents => ?_
    refine Action.Follows.bind (revoked_within_call (invalidateSelected_follows _ _)) fun own => ?_
    exact Action.Follows.bind (follows_note _ _ _) fun _ => Action.follows_pure _

/-- Unloading clears the slots of the class one after the other. -/
theorem clearing_follows (klass : ClassRef) :
    (Got.updateEach Cell.metaspace fun _ value =>
      (pure (if value = klass then none else some value) : Operation (Option ClassRef))).Follows
      (dropConduct klass rely) := by
  refine Got.follows_updateEach
    (fun _ seen value => value = if seen = klass then none else some seen)
    (fun index seen state _ heard => ⟨.refl, rfl⟩) ?_
  rintro heard index seen value cell rfl
  split
  · rename_i same
    subst same
    exact .inr .slot
  · exact .inl (by simp [Cell.metaspace, Got.replaceIf_self])

theorem dropped_within_call {α : Type} {operation : Operation α} {klass : ClassRef}
    (follows : operation.Follows (dropConduct klass rely)) :
    operation.Follows (callConduct image (.unload klass) rely) := by
  intro heard cell
  refine (follows heard cell).loosen ?_ (fun _ _ _ _ asked => asked.elim) fun _ _ kept => kept
  rintro heard before after (same | dropped)
  · exact .inl same
  · exact .inr (.drop rfl dropped)

theorem unload_follows (klass : ClassRef) :
    (unload image klass).Follows (callConduct image (.unload klass) rely) := by
  refine Action.Follows.bind (follows_look _) fun entry => ?_
  refine Action.Follows.bind (follows_alter fun _ _ => .unbind (.inr rfl)) fun _ => ?_
  refine Action.Follows.bind (dropped_within_call (clearing_follows klass)) fun _ => ?_
  cases entry with
  | none => exact Action.follows_pure _
  | some entry =>
    refine Action.Follows.bind (revoked_within_call (invalidateDependents_follows entry))
      fun dependents => ?_
    refine Action.Follows.bind (revoked_within_call (invalidateSelected_follows _ _)) fun own => ?_
    exact Action.Follows.bind (follows_note _ _ _) fun _ => Action.follows_pure _

/-! ## Resolving references -/

section References

variable {source : LinkedCode → Prop}

theorem classSlot_follows {index : Nat} {name : String} (named : StandsFor image index name)
    (loader : LoaderId) :
    (Got.getOrResolve Cell.metaspace index (Operation.ask (.findClass name loader))).Follows
      (linkConduct image source rely) := by
  exact follows_resolve (fun heard answer => heard (.findClass name loader) answer)
    (obeys_ask fun state => .findClass name loader)
    fun heard klass cell told => .fill (.metaspace named told)

theorem resolveMetaspace_follows (index : Nat) (loader : LoaderId) :
    (resolveMetaspace image index loader).Follows (linkConduct image source rely) := by
  unfold resolveMetaspace
  cases named : image.library.metaspaceName index with
  | error error => exact Action.follows_pure _
  | ok name =>
    exact Action.Follows.bind (classSlot_follows (.inl named) loader) fun value =>
      Action.follows_pure _

theorem resolveMetadata_follows (codeId localIndex : Nat) (holder : ClassView) :
    (resolveMetadata image codeId localIndex holder).Follows (linkConduct image source rely) := by
  unfold resolveMetadata
  cases named : metadataSlot image codeId localIndex with
  | error error => exact Action.follows_pure _
  | ok slot =>
    obtain ⟨descriptor, index⟩ := slot
    refine Action.Follows.bind ?_ fun value => Action.follows_pure _
    exact follows_resolve (fun heard answer => heard (.resolveMetadata descriptor holder) answer)
      (obeys_ask fun state => .resolveMetadata descriptor holder)
      fun heard value cell told => .fill (.metadata named told)

theorem resolveObject_follows (index : Nat) :
    (resolveObject image index).Follows (linkConduct image source rely) := by
  unfold resolveObject
  cases named : image.library.objectName index with
  | error error => exact Action.follows_pure _
  | ok descriptor =>
    refine Action.Follows.bind ?_ fun value => Action.follows_pure _
    exact follows_resolve (fun heard answer => heard (.resolveObject descriptor) answer)
      (obeys_ask fun state => .resolveObject descriptor)
      fun heard value cell told => .fill (.object named told)

theorem resolveReferences_follows (codeId : Nat) (detail : Blob.CodeDetail) (view : ClassView) :
    (resolveReferences image codeId detail view).Follows (linkConduct image source rely) := by
  refine Action.Follows.bind (follows_forEach (fun index => resolveMetaspace_follows _ _) _)
    fun classes => ?_
  cases classes with
  | error error => exact Action.follows_pure _
  | ok _ =>
    refine Action.Follows.bind (follows_forEach (fun index => resolveMetadata_follows _ _ _) _)
      fun metadata => ?_
    cases metadata with
    | error error => exact Action.follows_pure _
    | ok _ => exact follows_forEach (fun index => resolveObject_follows _) _

theorem publish_follows {code : LinkedCode} (known : source code) :
    (publish image code).Follows (linkConduct image source rely) :=
  follows_publish (fun _ _ installed => .install known installed)
    fun _ _ _ found resolved free => .stray known found resolved free

/-- What links references may be part of any call that may install the code it
installs. -/
theorem linked_within_call {α : Type} {operation : Operation α} {call : Call}
    (follows : operation.Follows (linkConduct image source rely))
    (implies : ∀ code, source code → Source image call code) :
    operation.Follows (callConduct image call rely) := by
  intro heard cell
  refine (follows heard cell).loosen ?_ ?_ fun _ _ kept => kept
  · rintro heard before after (same | linked)
    · exact .inl same
    · exact .inr (.link (linked.widen implies))
  · intro heard request before after asked
    exact asked.widen implies

end References

/-! ## Linking the methods of a class -/

section Methods

variable {entry : ClassEntry} {view : ClassView} {records : List Blob.CodeRecord}

section Linking

variable {change : Engine.signature.Heard → State → State → Prop}
  {question : Engine.Request → State → State → Prop}

/-- Linking a method keeps to a conduct that resolving its references keeps to, and after
that publishing its code. -/
theorem follows_publishMethod {record : Blob.CodeRecord}
    (asks : ∀ name state, question (.findMethod view.klass name) state state)
    (links : ∀ name detail (live : MethodRef), image.library.methodName record = .ok name →
      image.library.detailOf record = .ok detail →
      (resolveReferences image record.codeId.toUInt32.toNat detail view).Obeys
        (stateConduct change question rely) fun heard outcome cell => outcome = .ok () →
          ∀ code, image.place record detail name live view.klass entry.classId = .ok code →
            (publish image code cell).Obeys (stateConduct change question rely)
              (fun _ _ _ => True) heard cell) :
    (publishMethod image entry view record).Follows (stateConduct change question rely) := by
  refine Action.Follows.bind (follows_look _) fun phase => ?_
  split
  · exact Action.follows_pure _
  cases named : image.library.methodName record with
  | error error => exact Action.follows_pure _
  | ok name =>
    refine Action.Follows.bind (follows_ask (asks name)) fun live => ?_
    cases live with
    | none => exact Action.Follows.bind (follows_note _ _ _) fun _ => Action.follows_pure _
    | some live =>
      dsimp only
      split
      · exact Action.follows_pure _
      cases detailed : image.library.detailOf record with
      | error error => exact Action.follows_pure _
      | ok detail =>
        refine Action.Obeys.bind (links name detail live.method named detailed)
          fun outcome heard cell linked => ?_
        cases outcome with
        | error error => exact Action.follows_pure _ heard cell
        | ok _ =>
          dsimp only
          cases placed : image.place record detail name live.method view.klass entry.classId with
          | error error => exact Action.follows_pure _ heard cell
          | ok code =>
            refine (linked rfl code placed).bind fun later publication after _ _ => ?_
            split <;> exact Action.follows_pure _ later after

theorem follows_publishMethods {records : List Blob.CodeRecord}
    (each : ∀ record ∈ records,
      (publishMethod image entry view record).Follows (stateConduct change question rely)) :
    (publishMethods image entry view records).Follows (stateConduct change question rely) := by
  induction records with
  | nil => exact Action.follows_pure _
  | cons record rest ih =>
    obtain ⟨first, others⟩ := List.forall_mem_cons.mp each
    have onward : ∀ own : Nat,
        (do return own + (← publishMethods image entry view rest) : Operation Nat).Follows
          (stateConduct change question rely) :=
      fun own => Action.Follows.bind (ih others) fun others => Action.follows_pure _
    refine Action.Follows.bind first fun published => ?_
    cases published with
    | ok made =>
      cases made with
      | true => exact Action.Follows.bind (Action.follows_pure _) onward
      | false => exact Action.Follows.bind (Action.follows_pure _) onward
    | error error =>
      have report := fun text => Action.Follows.bind
        (follows_note .debug .methods text)
        fun _ => Action.Follows.bind (Action.follows_pure 0) onward
      cases error with
      | unresolved site reference => exact Action.Follows.bind (follows_count _) fun _ => report _
      | _ => exact report _

end Linking

theorem publishMethod_follows (known : image.classEntry? entry.classId = some entry)
    (listed : image.library.methodsOf entry.record = .ok records) {record : Blob.CodeRecord}
    (among : record ∈ records) :
    (publishMethod image entry view record).Follows
      (linkConduct image (Linked image entry view.klass) rely) := by
  refine follows_publishMethod (fun name state => .findMethod view.klass name) ?_
  intro name detail live named detailed heard cell
  refine (resolveReferences_follows _ detail view heard cell).weaken ?_
  intro later outcome after _ _ _ code placed
  have linked : Linked image entry view.klass code :=
    ⟨known, records, record, detail, name, live, listed, among, detailed, named, placed⟩
  exact publish_follows linked later after

theorem publishMethods_follows (known : image.classEntry? entry.classId = some entry)
    (listed : image.library.methodsOf entry.record = .ok records) {some : List Blob.CodeRecord}
    (among : ∀ record ∈ some, record ∈ records) :
    (publishMethods image entry view some).Follows
      (linkConduct image (Linked image entry view.klass) rely) :=
  follows_publishMethods fun record member =>
    publishMethod_follows known listed (among record member)

end Methods

/-! ## Linking classes -/

section Classes

variable {call : Call} {view : ClassView}

/-- A class of the blob is always the one with its number. -/
theorem classEntry_number {classId : Nat} {entry : ClassEntry}
    (found : image.classEntry? classId = some entry) : entry.classId = classId := by
  unfold Image.classEntry? at found
  split at found
  · obtain ⟨record, -, rfl⟩ := Option.map_eq_some_iff.mp found
    rfl
  · cases found

theorem classEntry_known {classId : Nat} {entry : ClassEntry}
    (found : image.classEntry? classId = some entry) :
    image.classEntry? entry.classId = some entry := by
  rw [classEntry_number found, found]

theorem lookupClass_known {name : String} {entry : ClassEntry}
    (found : lookupClass image name = .ok (some entry)) :
    image.classEntry? entry.classId = some entry := by
  unfold lookupClass at found
  obtain ⟨record, -, onward⟩ := Outcome.bind_ok.mp found
  cases record with
  | none => cases onward
  | some record => exact classEntry_known (Except.ok.inj onward)

/-- The gate asks nothing, and it lets a class pass exactly if the class matches
and can take its place. -/
theorem gate_outcome {entry : ClassEntry} (found : lookupClass image view.name = .ok (some entry))
    (cell : Cell) :
    ∃ miss after, gate image entry view cell = .done miss after ∧
      match miss with
      | none => Matches image entry view ∧ (claimPlace entry view cell.state).1 = true ∧
          after.state = (claimPlace entry view cell.state).2
      | some _ => after.state = cell.state ∨ Matches image entry view ∧
          (claimPlace entry view cell.state).1 = false ∧
          after.state = (claimPlace entry view cell.state).2 := by
  unfold gate
  by_cases redefined : view.redefined = true
  · rw [if_pos redefined]
    exact ⟨_, _, rfl, .inl rfl⟩
  rw [if_neg redefined]
  by_cases fingerprint : entry.record.fingerprint ≠ view.fingerprint
  · rw [if_pos fingerprint]
    exact ⟨_, _, rfl, .inl rfl⟩
  rw [if_neg fingerprint]
  by_cases assertions : (image.library.settings.omitAssertions && view.assertionsEnabled) = true
  · rw [if_pos assertions]
    exact ⟨_, _, rfl, .inl rfl⟩
  rw [if_neg assertions]
  have fits : Matches image entry view :=
    ⟨found, by simpa using redefined, by simpa using fingerprint, by simpa using assertions⟩
  simp only [Operation.change, Action.bind_apply, Action.step_apply, Dialogue.bind_done]
  cases claimed : (claimPlace entry view cell.state).1 with
  | false => exact ⟨_, _, rfl, .inr ⟨fits, rfl, rfl⟩⟩
  | true => exact ⟨_, _, rfl, fits, rfl, rfl⟩

/-- Matching a class that is not bound asks nothing. It binds the class, or
leaves traces of a refusal. -/
theorem bindClass_obeys {heard : Engine.signature.Heard} {cell : Cell}
    (presented : Presents call view) (unbound : boundEntry image cell.state view.klass = none) :
    (bindClass image view cell).Obeys (callConduct image call rely)
      (fun _ outcome after => ∀ entry, outcome = .ok entry →
        image.classEntry? entry.classId = some entry ∧
          after.state.binding? view.klass = some entry.classId) heard cell := by
  simp only [bindClass, findClass, Operation.count, Operation.note, Operation.alter,
    Action.bind_apply, Action.update_apply, Dialogue.bind_done]
  cases found : lookupClass image view.name with
  | error error => exact ⟨.single (.inl rfl), fun _ absurd => by cases absurd⟩
  | ok outcome =>
    cases outcome with
    | none => exact ⟨.single (.inl rfl), fun _ absurd => by cases absurd⟩
    | some entry =>
      simp only [Action.pure_apply, Dialogue.bind_done, Action.bind_apply]
      obtain ⟨miss, after, ran, outcome⟩ := gate_outcome found
        { cell with counters := { cell.counters with
            classesExamined := cell.counters.classesExamined + 1 } }
      rw [ran]
      cases miss with
      | none =>
        obtain ⟨fits, claimed, left⟩ := outcome
        refine ⟨.single (.inr ?_), fun other same => ?_⟩
        · have bound : Change image call heard cell.state
              ((claimPlace entry view cell.state).2.bind view.klass entry.classId) :=
            .bind presented fits unbound claimed
          simpa [left] using bound
        · cases same
          refine ⟨lookupClass_known found, ?_⟩
          simp [left, State.bind, State.binding?]
      | some miss =>
        refine ⟨.single ?_, fun _ absurd => by cases absurd⟩
        rcases outcome with left | ⟨fits, taken, left⟩
        · exact .inl left
        · have refused : Change image call heard cell.state (claimPlace entry view cell.state).2 :=
            .refuse fits taken
          exact .inr (by simpa [left] using refused)

theorem resolveClass_obeys (presented : Presents call view) :
    (resolveClass image view).Obeys (callConduct image call rely)
      fun _ outcome after => ∀ entry, outcome = .ok entry →
        image.classEntry? entry.classId = some entry ∧
          after.state.binding? view.klass = some entry.classId := by
  intro heard cell
  simp only [resolveClass, Operation.look, Action.bind_apply, Action.read_apply,
    Dialogue.bind_done]
  cases bound : boundEntry image cell.state view.klass with
  | none => exact bindClass_obeys presented bound
  | some entry =>
    refine ⟨.refl, fun other same => ?_⟩
    cases same
    obtain ⟨classId, held, found⟩ := Option.bind_eq_some_iff.mp bound
    obtain rfl := classEntry_number found
    exact ⟨found, held⟩

theorem findClass_follows {change : Engine.signature.Heard → State → State → Prop}
    {question : Engine.Request → State → State → Prop} (name : String) :
    (findClass image name).Follows (stateConduct change question rely) := by
  unfold findClass
  cases lookupClass image name with
  | ok entry => exact Action.follows_pure _
  | error error => exact Action.Follows.bind (follows_note _ _ _) fun _ => Action.follows_pure _

theorem classFromSlot_follows (name : String) :
    (classFromSlot image name view).Follows (callConduct image call rely) := by
  intro heard cell
  simp only [classFromSlot, findClass, Operation.note, Action.bind_apply]
  cases found : lookupClass image name with
  | error error => exact ⟨.single (.inl rfl), trivial⟩
  | ok outcome =>
    cases outcome with
    | none => exact ⟨.refl, trivial⟩
    | some entry =>
      simp only [Action.pure_apply, Dialogue.bind_done]
      cases slot : natural? entry.record.gotIndex with
      | none => exact ⟨.refl, trivial⟩
      | some index =>
        have filled : (Got.getOrResolve Cell.metaspace index
            (Operation.ask (.findClass name view.loader))).Follows
            (linkConduct image (fun _ => False) rely) :=
          classSlot_follows (.inr ⟨entry, found, slot⟩) view.loader
        exact linked_within_call filled (fun code impossible => impossible.elim) heard cell

/-! ## Routines -/

section Routines

variable {change : Engine.signature.Heard → State → State → Prop}
  {question : Engine.Request → State → State → Prop}

theorem follows_findRoutines (asks : ∀ routine state, question (.findRoutine routine) state state)
    (routines : List String) :
    (findRoutines image routines).Follows (stateConduct change question rely) := by
  induction routines with
  | nil => exact Action.follows_pure _
  | cons routine rest ih =>
    refine Action.Follows.bind (follows_ask (asks routine)) fun found => ?_
    cases found with
    | none => exact Action.follows_pure _
    | some address =>
      refine Action.Follows.bind ih fun others => ?_
      cases others with
      | error error => exact Action.follows_pure _
      | ok addresses => exact Action.follows_pure _

theorem follows_linkRoutines (asks : ∀ routine state, question (.findRoutine routine) state state) :
    (linkRoutines image).Follows (stateConduct change question rely) := by
  unfold linkRoutines
  cases image.library.routines with
  | error error => exact Action.follows_pure _
  | ok routines =>
    refine Action.Follows.bind (follows_findRoutines asks routines) fun found => ?_
    cases found with
    | error error => exact Action.follows_pure _
    | ok addresses =>
      exact Action.Follows.bind (follows_note _ _ _) fun _ => Action.follows_pure _

/-- Linking the routines keeps to a conduct that allows asking for them and noting what
came of it. -/
theorem follows_ensureRoutines (asks : ∀ routine state, question (.findRoutine routine) state state)
    (links : ∀ heard state addresses, change heard state
      { state with routines := some (state.routines.getD addresses) })
    (disables : ∀ heard state, change heard state { state with linkageDisabled := true }) :
    (ensureRoutines image).Follows (stateConduct change question rely) := by
  refine Action.Follows.bind (follows_look _) fun linked => ?_
  cases linked with
  | true => exact Action.follows_pure _
  | false =>
    refine Action.Follows.bind (follows_linkRoutines asks) fun outcome => ?_
    cases outcome with
    | ok addresses =>
      exact Action.Follows.bind (follows_alter fun heard state => links heard state addresses)
        fun _ => Action.follows_pure _
    | error error =>
      refine Action.Follows.bind (follows_note _ _ _) fun _ => ?_
      exact Action.Follows.bind (follows_alter disables) fun _ => Action.follows_pure _

end Routines

theorem ensureRoutines_follows : (ensureRoutines image).Follows (callConduct image call rely) :=
  follows_ensureRoutines (fun routine _ => .findRoutine routine)
    (fun _ _ addresses => .routines addresses) fun _ _ => .disable

/-- Whatever the miss, it does nothing but take code out of use. -/
theorem afterMiss_revokes (miss : Miss) :
    (afterMiss image view miss).Follows (revokeConduct image rely) := by
  unfold afterMiss
  split
  · refine Action.Follows.bind (findClass_follows view.name) fun found => ?_
    cases found with
    | none => exact Action.follows_pure _
    | some entry =>
      exact Action.Follows.bind (invalidateDependents_follows entry) fun _ => retireCodes_follows _
  · exact Action.follows_pure _

theorem afterMiss_follows (miss : Miss) :
    (afterMiss image view miss).Follows (callConduct image call rely) :=
  revoked_within_call (afterMiss_revokes miss)

/-- Matching a live class asks nothing. -/
theorem resolveClass_silent (image : Image) (view : ClassView) (cell : Cell) :
    ∃ outcome after, resolveClass image view cell = .done outcome after := by
  simp only [resolveClass, Operation.look, Action.bind_apply, Action.read_apply,
    Dialogue.bind_done]
  cases boundEntry image cell.state view.klass with
  | some entry => exact ⟨_, _, rfl⟩
  | none =>
    simp only [bindClass, findClass, Operation.count, Operation.note, Operation.alter,
      Action.bind_apply, Action.update_apply, Dialogue.bind_done]
    cases found : lookupClass image view.name with
    | error error => exact ⟨_, _, rfl⟩
    | ok outcome =>
      cases outcome with
      | none => exact ⟨_, _, rfl⟩
      | some entry =>
        simp only [Action.pure_apply, Dialogue.bind_done, Action.bind_apply]
        obtain ⟨miss, after, ran, -⟩ := gate_outcome found
          { cell with counters := { cell.counters with
              classesExamined := cell.counters.classesExamined + 1 } }
        rw [ran]
        cases miss with
        | none => exact ⟨_, _, rfl⟩
        | some miss => exact ⟨_, _, rfl⟩

/-- How a load goes on with the outcome of matching its class. -/
def finishLoad (image : Image) (view : ClassView) :
    Except Miss ClassEntry → Operation (Except Miss Nat)
  | .error miss => do
    afterMiss image view miss
    return .error miss
  | .ok entry => do
    if ← ensureRoutines image then
      match image.library.methodsOf entry.record with
      | .error error =>
        Operation.note .warn .classes s!"methods of {view.name}: {error.message}"
        return .ok 0
      | .ok records => return .ok (← publishMethods image entry view records)
    else return .error .linkageDisabled

/-- On a heap that was disabled a load does nothing. -/
theorem loadClass_disabled {cell : Cell} (disabled : cell.state.linkageDisabled = true) :
    loadClass image view cell = .done (.error .linkageDisabled) cell := by
  simp only [loadClass, Operation.look, Action.bind_apply, Action.read_apply, Dialogue.bind_done,
    disabled, if_true]
  rfl

/-- Otherwise it goes on where matching the class has ended. -/
theorem loadClass_enabled {cell after : Cell} {outcome : Except Miss ClassEntry}
    (enabled : cell.state.linkageDisabled = false)
    (ran : resolveClass image view cell = .done outcome after) :
    loadClass image view cell = finishLoad image view outcome after := by
  simp only [loadClass, Operation.look, Action.bind_apply, Action.read_apply, Dialogue.bind_done,
    enabled, Bool.false_eq_true, if_false, ran]
  cases outcome <;> rfl

/-- A load keeps to a conduct from where its class was matched if its parts do. -/
theorem follows_finishLoad {change : Engine.signature.Heard → State → State → Prop}
    {question : Engine.Request → State → State → Prop} {outcome : Except Miss ClassEntry}
    (missed : ∀ miss, outcome = .error miss →
      (afterMiss image view miss).Follows (stateConduct change question rely))
    (ensured : (ensureRoutines image).Follows (stateConduct change question rely))
    (published : ∀ entry records, outcome = .ok entry →
      image.library.methodsOf entry.record = .ok records →
        (publishMethods image entry view records).Follows (stateConduct change question rely)) :
    (finishLoad image view outcome).Follows (stateConduct change question rely) := by
  cases outcome with
  | error miss => exact Action.Follows.bind (missed miss rfl) fun _ => Action.follows_pure _
  | ok entry =>
    refine Action.Follows.bind ensured fun linked => ?_
    cases linked with
    | false => exact Action.follows_pure _
    | true =>
      cases listed : image.library.methodsOf entry.record with
      | error error => exact Action.Follows.bind (follows_note _ _ _) fun _ => Action.follows_pure _
      | ok records =>
        exact Action.Follows.bind (published entry records rfl listed) fun _ => Action.follows_pure _

/-- Code that may be linked for a live class in the class of the blob that it is bound
to. -/
def Destined (image : Image) (klass : ClassRef) (state : State) (code : LinkedCode) : Prop :=
  ∃ entry, Linked image entry klass code ∧ state.binding? klass = some entry.classId

theorem swept_when_matched {α : Type} {operation : Operation α} {name : String}
    {source : LinkedCode → Prop}
    (follows : operation.Follows (callConduct image (.sweep name) rely)) :
    operation.Follows (matchedConduct image name source rely) := by
  intro heard cell
  refine (follows heard cell).loosen ?_ ?_ fun _ _ kept => kept
  · rintro heard before after (same | change)
    · exact .inl same
    · exact .inr (.inr change)
  · intro heard request before after asked
    exact asked.widen fun code impossible => by cases impossible

theorem linked_when_matched {α : Type} {operation : Operation α} {name : String}
    {source other : LinkedCode → Prop} (follows : operation.Follows (linkConduct image source rely))
    (implies : ∀ code, source code → other code) :
    operation.Follows (matchedConduct image name other rely) := by
  intro heard cell
  refine (follows heard cell).loosen ?_ ?_ fun _ _ kept => kept
  · rintro heard before after (same | linked)
    · exact .inl same
    · exact .inr (.inl (linked.widen implies))
  · intro heard request before after asked
    exact asked.widen implies

variable (image rely) in
/-- A live class is matched before anything is asked. What is linked from then on is
for the class of the blob that it is bound to at that moment. -/
theorem loadClass_matched (presented : Presents call view) (heard : Engine.signature.Heard)
    (cell : Cell) : ∃ middle,
      Relation.ReflTransGen ((callConduct image call rely).change heard) cell middle ∧
        (loadClass image view cell).Obeys
          (matchedConduct image view.name (Destined image view.klass middle.state) rely)
          (fun _ _ _ => True) heard middle := by
  by_cases disabled : cell.state.linkageDisabled = true
  · rw [loadClass_disabled disabled]
    exact ⟨cell, .refl, .refl, trivial⟩
  obtain ⟨outcome, middle, ran⟩ := resolveClass_silent image view cell
  have resolved : (resolveClass image view).Obeys (callConduct image call rely) _ :=
    resolveClass_obeys presented
  have came := resolved heard cell
  rw [ran] at came
  obtain ⟨changes, known⟩ := came
  rw [loadClass_enabled (by simpa using disabled) ran]
  refine ⟨middle, changes, ?_⟩
  refine follows_finishLoad (fun miss _ => swept_when_matched (afterMiss_follows miss))
    (swept_when_matched ensureRoutines_follows) (fun entry records same listed => ?_) heard middle
  obtain ⟨own, bound⟩ := known entry same
  have published : (publishMethods image entry view records).Follows
      (linkConduct image (Linked image entry view.klass) rely) :=
    publishMethods_follows own listed fun record among => among
  exact linked_when_matched published fun code linked => ⟨entry, linked, bound⟩

theorem loadClass_follows : (loadClass image view).Follows
    (callConduct image (.loadClass view) rely) := by
  intro heard cell
  obtain ⟨middle, changes, obeys⟩ := loadClass_matched image rely (.loadClass view) heard cell
  have implies : ∀ code, Destined image view.klass middle.state code →
      Source image (.loadClass view) code := fun code ⟨entry, linked, _⟩ => .linked linked
  apply Dialogue.Obeys.after _ changes
  refine obeys.loosen ?_ ?_ fun _ _ kept => kept
  · rintro heard before after (same | linked | change)
    · exact .inl same
    · exact .inr (.link (linked.widen implies))
    · exact .inr change.of_sweep
  · intro heard request before after asked
    exact asked.widen implies

end Classes

/-! ## Calls -/

theorem updateObjects_follows (moves : List (ObjectRef × Option ObjectRef)) :
    (updateObjects fun object =>
      (pure (Got.moved moves object) : Operation (Option ObjectRef))).Follows
      (callConduct image (.updateObjects moves) rely) := by
  refine Action.Follows.bind ?_ fun visits => Action.follows_pure _
  refine Got.follows_updateEach (fun _ object value => value = Got.moved moves object)
    (fun _ _ _ _ _ => ⟨.refl, rfl⟩) ?_
  intro heard index object value cell told
  exact .inr (.relocate rfl (.slot told))

theorem admitCode_follows (code : LinkedCode) :
    (admitCode image code).Follows (callConduct image (.admitCode code) rely) :=
  fun _ _ => ⟨.single (.inr (.count rfl)), trivial⟩

theorem sweep_follows {call : Call} (name : String) :
    (sweep image name).Follows (callConduct image call rely) := by
  refine Action.Follows.bind (findClass_follows name) fun found => ?_
  cases found with
  | none => exact Action.follows_pure _
  | some entry => exact revoked_within_call (invalidateDependents_follows entry)

/-- Every call keeps to its conduct. -/
theorem perform_follows (call : Call) :
    (perform image call).Follows (callConduct image call rely) := by
  have idle : ∀ code : LinkedCode, False → Source image call code :=
    fun code impossible => impossible.elim
  cases call with
  | loadClass view => exact loadClass_follows
  | resolveClass view => exact (resolveClass_obeys (.resolveClass view)).follows
  | findClass name => exact findClass_follows name
  | classFromSlot name view => exact classFromSlot_follows name
  | resolveMetaspace index loader => exact linked_within_call (resolveMetaspace_follows _ _) idle
  | resolveMetadata codeId localIndex holder =>
    exact linked_within_call (resolveMetadata_follows _ _ _) idle
  | resolveObject index => exact linked_within_call (resolveObject_follows _) idle
  | updateObjects moves => exact updateObjects_follows moves
  | publish code =>
    exact linked_within_call (publish_follows rfl) fun other same => same ▸ .given code
  | admitCode code => exact admitCode_follows code
  | sweep name => exact sweep_follows name
  | sweepEntry entry => exact revoked_within_call (invalidateDependents_follows entry)
  | flush klass => exact flush_follows klass
  | unload klass => exact unload_follows klass

end Precompiled.Heap
