import Precompiled.Proofs.Heap.Custody
import Precompiled.Proofs.Heap.Sweeps

/-! Every task that nobody disturbs restores custody. Most tasks never break it.
Linking a class installs code only while the class is bound. Redefining or
unloading a class takes its binding first and its code afterwards, and between the
two the class is spared. -/
namespace Precompiled.Heap

variable {image : Image} {before after state : State} {klass : ClassRef} {classId : Nat}
  {spared : Nat → Prop} {code : LinkedCode} {call : Call} {α : Type} {operation : Operation α}

/-- Nobody but live classes that are bound hold executable code. -/
abbrev Kept (image : Image) : State → Prop :=
  Custody image fun _ => False

/-- Linking a class yields only code that belongs to the class. -/
def Image.Consistent (image : Image) : Prop :=
  ∀ entry holder code, Linked image entry holder code → image.Assigns code.codeId entry.classId

theorem Linked.owned {entry : ClassEntry} {holder : ClassRef}
    (linked : Linked image entry holder code) :
    code.classId = some entry.classId ∧ code.holder = some holder := by
  obtain ⟨records, record, detail, name, live, -, -, -, -, placed⟩ := linked.placed
  obtain ⟨offset, start, -, rfl⟩ := place_ok.mp placed
  exact ⟨rfl, rfl⟩

/-! ## Tasks that never break custody -/

/-- Before a question no code becomes executable if none can be installed. -/
theorem Ask.quiet {request : Engine.Request} {source : LinkedCode → Prop}
    (none : ∀ code, ¬source code) (asked : Ask image source request before after) :
    before.Retains image after ∧ before.Touches after := by
  cases asked with
  | install known installed => exact absurd known (none _)
  | deoptimize deoptimized =>
    cases deoptimized with
    | slot found executable method =>
      exact ⟨.of_same rfl rfl rfl, .one found (.invalidate _) rfl⟩
  | _ => exact ⟨.of_same rfl rfl rfl, .none rfl⟩

/-- Calls that neither bring code nor take a class away. -/
structure Quiet (image : Image) (call : Call) : Prop where
  flush : ∀ klass, call ≠ .flush klass
  unload : ∀ klass, call ≠ .unload klass
  source : ∀ code, ¬Source image call code

theorem quiet_resolveClass (view : ClassView) : Quiet image (.resolveClass view) :=
  ⟨nofun, nofun, nofun⟩

/-- A property that comes with custody and lasts while code is only taken out of
use. -/
structure Stable (image : Image) (spared : Nat → Prop) (kept : State → Prop) : Prop where
  custody : ∀ state, kept state → Custody image spared state
  onward : ∀ before after, kept before → before.Retains image after → before.Touches after →
    kept after

theorem stable_custody : Stable image spared (Custody image spared) :=
  ⟨fun _ kept => kept, fun _ _ kept retains touches => kept.touches retains touches⟩

theorem Stable.beside {kept : State → Prop} (stable : Stable image spared kept)
    (before after : State) (holds : kept before) (drifted : before.Beside after) : kept after :=
  State.Beside.keeps
    (fun _ _ holds => stable.onward _ _ holds (.of_same rfl rfl rfl) (.none rfl)) _ _ holds drifted

/-- A live class stays bound. -/
theorem stable_binding : Stable image spared fun state =>
    Custody image spared state ∧ state.binding? klass = some classId where
  custody _ kept := kept.1
  onward _ _ kept retains touches :=
    ⟨kept.1.touches retains touches, retains.bindings _ _ kept.2⟩

/-- A slot stays idle. -/
theorem stable_idle (codeId : Nat) : Stable image spared fun state =>
    state.Idle codeId ∧ Custody image spared state where
  custody _ kept := kept.2
  onward _ _ kept retains touches :=
    ⟨fun code runs => kept.1 code (touches.runs kept.2.orderly runs),
      kept.2.touches retains touches⟩

/-- What is stable lasts while code is taken out of use. -/
theorem Stable.lasting {kept : State → Prop} (stable : Stable image spared kept) :
    Lasting State.Beside kept where
  revoke holds revoked := stable.onward _ _ holds revoked.retains revoked.touches
  deoptimize holds deoptimized := by
    cases deoptimized with
    | slot found executable method =>
      exact stable.onward _ _ holds (.of_same rfl rfl rfl) (.one found (.invalidate _) rfl)
  relied holds onward := stable.beside _ _ holds onward

section Stable

variable {kept : State → Prop}

/-- What a quiet call does keeps what is stable. -/
theorem quiet_obeys (quiet : Quiet image call) (stable : Stable image spared kept)
    {post : α → State → Prop}
    (obeys : operation.Obeys (callConduct image call State.Beside)
      fun _ value cell => post value cell.state) :
    Ensures kept operation fun value state => post value state ∧ kept state := by
  refine .of_obeys obeys stable.beside ?_ ?_
  · intro heard before after holds change
    have retains := change.retains (stable.custody before holds).seats quiet.flush quiet.unload
    exact stable.onward before after holds retains change.touches
  · intro request before after holds asked
    obtain ⟨retains, touches⟩ := asked.quiet quiet.source
    exact stable.onward before after holds retains touches

theorem quiet_keeps (quiet : Quiet image call) (stable : Stable image spared kept)
    (follows : operation.Follows (callConduct image call State.Beside)) :
    Ensures kept operation fun _ => kept := by
  have ensures : Ensures kept operation fun _ state => True ∧ kept state :=
    quiet_obeys quiet stable follows
  exact ensures.to_weaker fun _ _ known => known.2

end Stable

/-! ## Linking -/

/-- The methods of a bound class are published for the class that is bound. -/
theorem publishMethods_keeps (consistent : image.Consistent) {entry : ClassEntry} {view : ClassView}
    {records : List Blob.CodeRecord} (known : image.classEntry? entry.classId = some entry)
    (listed : image.library.methodsOf entry.record = .ok records) :
    Ensures (fun state => Kept image state ∧ state.binding? view.klass = some entry.classId)
      (publishMethods image entry view records) fun _ => Kept image := by
  have follows : (publishMethods image entry view records).Follows
      (linkConduct image (Linked image entry view.klass) State.Beside) :=
    publishMethods_follows known listed fun _ among => among
  have ensures : Ensures
      (fun state => Kept image state ∧ state.binding? view.klass = some entry.classId)
      (publishMethods image entry view records)
      (fun _ state => Kept image state ∧ state.binding? view.klass = some entry.classId) := by
    refine .of_follows follows stable_binding.beside ?_ ?_
    · rintro heard before after ⟨custody, bound⟩ linked
      have retains : before.Retains image after := linked.retains
      exact ⟨custody.link linked, retains.bindings _ _ bound⟩
    · rintro request before after ⟨custody, bound⟩ asked
      cases asked with
      | install linked installed =>
        obtain ⟨own, holder⟩ := linked.owned
        have retains : before.Retains image after := installed.retains
        exact ⟨custody.install own holder (consistent _ _ _ linked) bound installed,
          retains.bindings _ _ bound⟩
      | deoptimize deoptimized =>
        refine ⟨custody.deoptimize deoptimized, ?_⟩
        cases deoptimized
        exact bound
      | _ => exact ⟨custody, bound⟩
  exact ensures.to_weaker fun _ _ known => known.1

theorem loadClass_keeps (consistent : image.Consistent) (view : ClassView) :
    Ensures (Kept image) (loadClass image view) fun _ => Kept image := by
  have quiet : Quiet image (.resolveClass view) := quiet_resolveClass view
  have resolved : Ensures (Kept image) (resolveClass image view) fun outcome state =>
      (∀ entry, outcome = .ok entry → image.classEntry? entry.classId = some entry ∧
        state.binding? view.klass = some entry.classId) ∧ Kept image state :=
    quiet_obeys quiet stable_custody (resolveClass_obeys (.resolveClass view))
  refine .bind (.look _) fun disabled => ?_
  cases disabled with
  | true => exact .pure _ fun _ holds => holds.1
  | false =>
    refine .bind (resolved.of_stronger fun _ holds => holds.1) fun outcome => ?_
    cases outcome with
    | error miss =>
      have missed : Ensures (Kept image) (afterMiss image view miss) fun _ => Kept image :=
        quiet_keeps quiet stable_custody (afterMiss_follows miss)
      refine .bind (missed.of_stronger fun _ holds => holds.2) fun _ => ?_
      exact .pure _ fun _ holds => holds
    | ok entry =>
      by_cases known : image.classEntry? entry.classId = some entry
      · have ensured : Ensures
            (fun state => Kept image state ∧ state.binding? view.klass = some entry.classId)
            (ensureRoutines image)
            fun _ state => Kept image state ∧ state.binding? view.klass = some entry.classId :=
          quiet_keeps quiet stable_binding ensureRoutines_follows
        refine .bind (ensured.of_stronger fun _ holds => ⟨holds.2, (holds.1 entry rfl).2⟩)
          fun linked => ?_
        cases linked with
        | false => exact .pure _ fun _ holds => holds.1
        | true =>
          cases listed : image.library.methodsOf entry.record with
          | error error =>
            exact .bind (.note _ _ _) fun _ => .pure _ fun _ holds => holds.1
          | ok records =>
            exact .bind (publishMethods_keeps consistent known listed) fun _ =>
              .pure _ fun _ holds => holds
      · exact fun _ _ holds => absurd (holds.1 entry rfl).1 known

/-! ## Publishing again -/

/-- Code that the heap holds is not published again. -/
theorem publish_keeps {kept : State → Prop} (orderly : ∀ state, kept state → state.Orderly)
    (code : LinkedCode) :
    Ensures (fun state => kept state ∧ state.Holds code.codeId code) (publish image code)
      fun _ => kept := by
  rintro heard cell ⟨holds, slot, found, held⟩
  obtain ⟨present, -⟩ := (orderly _ holds _ _ found).handle code held
  obtain ⟨phase, handle, admitted⟩ := slot
  cases (held : handle = some code)
  simp only [publish, Operation.changeSlot, Operation.change, Action.bind_apply, Action.step_apply,
    found, Dialogue.bind_done]
  cases phase with
  | unresolved => exact absurd rfl present
  | resolved =>
    refine ⟨.single trivial, ?_⟩
    simpa only [Slot.publish, State.set_same found] using holds
  | invalidated =>
    refine ⟨.single trivial, ?_⟩
    simpa only [Slot.publish, State.set_same found] using holds

/-! ## Taking a class away -/

/-- A slot that is not resolved is idle. -/
theorem idle_of_phase {codeId : Nat} {select : Slot.Phase → Bool}
    (resolved : select .resolved = true)
    (unselected : (state.phase? codeId).any select = false) : state.Idle codeId := by
  rintro code ⟨slot, found, executable, method⟩
  have phase := (executable_some.mp executable).1
  simp [State.phase?, found, phase, resolved] at unselected

theorem mem_codesOf {codeId : Nat} (assigned : image.Assigns codeId classId) :
    codeId ∈ image.codesOf classId := by
  obtain ⟨owned, found, own⟩ := assigned
  have listed : image.records[codeId]? = some (some owned) := Option.join_eq_some_iff.mp found
  refine List.mem_filterMap.mpr ⟨(some owned, codeId), ?_, ?_⟩
  · exact List.mem_zipIdx_iff_getElem?.mpr listed
  · simp [own]

/-- The class that was taken away, if any was. -/
def Taken (entry : Option ClassEntry) (classId : Nat) : Prop :=
  ∃ own, entry = some own ∧ own.classId = classId

/-- Once the code of the class is out of use, custody is restored. -/
theorem invalidateClass_restores {select : Slot.Phase → Bool} (resolved : select .resolved = true)
    (entry : ClassEntry) :
    Ensures (Custody image (Taken (some entry))) (invalidateClass image entry.classId select)
      fun _ => Kept image := by
  have idles : Ensures (Custody image (Taken (some entry)))
      (invalidateClass image entry.classId select) fun _ state =>
        (∀ other ∈ image.codesOf entry.classId, state.Idle other) ∧
          Custody image (Taken (some entry)) state :=
    invalidateSelected_attains (fun _ _ beside => beside.grows) image
      (fun codeId => (stable_idle codeId).lasting) stable_custody.lasting
      (fun _ _ _ dead => dead.idle) (fun _ _ _ unselected => idle_of_phase resolved unselected) _
  apply idles.to_weaker
  rintro report state ⟨idle, custody⟩
  apply custody.restore
  rintro other codeId code ⟨own, same, rfl⟩ assigned
  obtain rfl := Option.some.inj same
  exact idle codeId (mem_codesOf assigned) code

/-- After the sweeps of a class taken away custody is restored. -/
theorem sweeps_restore {select : Slot.Phase → Bool} (resolved : select .resolved = true)
    (entry : ClassEntry) {rest : SweepReport → SweepReport → Operation α}
    (onward : ∀ dependents own, Ensures (Kept image) (rest dependents own) fun _ => Kept image) :
    Ensures (Custody image (Taken (some entry)))
      (do rest (← invalidateDependents image entry) (← invalidateClass image entry.classId select))
      fun _ => Kept image := by
  have dependents : Ensures (Custody image (Taken (some entry))) (invalidateDependents image entry)
      fun _ => Custody image (Taken (some entry)) :=
    revokes_last stable_custody.lasting (invalidateDependents_follows entry)
  refine .bind dependents fun report => ?_
  exact .bind (invalidateClass_restores resolved entry) (onward report)

/-- Whoever is bound to a class has that class taken away with it. -/
theorem entryOf_bound {entry : Option ClassEntry} (custody : Custody image spared state)
    (found : entry = entryOf image state klass) (bound : state.binding? klass = some classId) :
    Taken entry classId := by
  obtain ⟨own, index, loader, known, -⟩ := custody.seated klass classId bound
  refine ⟨own, ?_, classEntry_number known⟩
  rw [found, entryOf, boundEntry, bound, Option.bind_some, known]

/-- A live class that loses its binding leaves no code behind but that of the
class taken away with it. -/
theorem unbind_spares (klass : ClassRef) (entry : Option ClassEntry) :
    Ensures (fun state => Kept image state ∧ entry = entryOf image state klass)
      (Operation.alter fun state => state.unbind klass)
      fun _ state => Custody image (Taken entry) state ∧ state.binding? klass = none := by
  apply Attains.alter
  rintro state ⟨custody, found⟩
  refine ⟨(custody.unbind klass).spare fun classId bound => ?_, by simp⟩
  exact entryOf_bound custody found bound

theorem flush_keeps (klass : ClassRef) :
    Ensures (Kept image) (flush image klass) fun _ => Kept image := by
  refine .bind (.look _) fun entry => ?_
  cases entry with
  | none => exact .pure _ fun _ holds => holds.1
  | some entry =>
    refine .bind (unbind_spares klass (some entry)) fun _ => ?_
    refine .of_stronger (sweeps_restore rfl entry fun dependents own => ?_) fun _ holds => holds.1
    exact .bind (.note _ _ _) fun _ => .pure _ fun _ holds => holds

/-- Clearing the metaspace slots of a live class that is not bound. -/
theorem clearing_keeps (klass : ClassRef) :
    Ensures (fun state => Custody image spared state ∧ state.binding? klass = none)
      (Got.updateEach Cell.metaspace fun _ value =>
        (pure (if value = klass then none else some value) : Operation (Option ClassRef)))
      fun _ => Custody image spared := by
  have ensures : Ensures (fun state => Custody image spared state ∧ state.binding? klass = none)
      (Got.updateEach Cell.metaspace fun _ value =>
        (pure (if value = klass then none else some value) : Operation (Option ClassRef)))
      fun _ state => Custody image spared state ∧ state.binding? klass = none :=
    .of_follows (clearing_follows klass)
      (State.Beside.keeps fun state _ holds =>
        ⟨stable_custody.beside state _ holds.1 rfl, holds.2⟩)
      (fun _ _ _ holds dropped => holds.1.drop holds.2 dropped) fun _ _ _ _ asked => asked.elim
  exact ensures.to_weaker fun _ _ holds => holds.1

theorem unload_keeps (klass : ClassRef) :
    Ensures (Kept image) (unload image klass) fun _ => Kept image := by
  refine .bind (.look _) fun entry => ?_
  refine .bind (unbind_spares klass entry) fun _ => .bind (clearing_keeps klass) fun _ => ?_
  cases entry with
  | none =>
    refine .pure _ fun state custody => custody.restore ?_
    rintro classId codeId code ⟨own, impossible, -⟩
    cases impossible
  | some entry =>
    refine sweeps_restore rfl entry fun dependents own => ?_
    exact .bind (.note _ _ _) fun _ => .pure _ fun _ holds => holds

/-! ## Any task -/

/-- A call that publishes nothing but what the heap holds restores custody. -/
theorem call_keeps (consistent : image.Consistent) (call : Call) :
    Ensures (fun state => Kept image state ∧
        ∀ code, call = .publish code → state.Holds code.codeId code)
      (perform image call) fun _ => Kept image := by
  have quietly : Quiet image call → Ensures (fun state => Kept image state ∧
      ∀ code, call = .publish code → state.Holds code.codeId code)
      (perform image call) fun _ => Kept image := by
    intro quiet
    have keeps : Ensures (Kept image) (perform image call) fun _ => Kept image :=
      quiet_keeps quiet stable_custody (perform_follows call)
    exact keeps.of_stronger fun _ holds => holds.1
  cases call with
  | loadClass view =>
    exact (loadClass_keeps consistent view).of_stronger fun _ holds => holds.1
  | publish code =>
    have orderly (state : State) (kept : Kept image state) : state.Orderly := kept.orderly
    exact (publish_keeps orderly code).of_stronger fun _ holds => ⟨holds.1, holds.2 code rfl⟩
  | flush klass => exact (flush_keeps klass).of_stronger fun _ holds => holds.1
  | unload klass => exact (unload_keeps klass).of_stronger fun _ holds => holds.1
  | _ => exact quietly ⟨nofun, nofun, nofun⟩

theorem Relocate.beside {moved : ObjectRef → Option ObjectRef → Prop}
    (relocated : Relocate moved before after) : before.Beside after := by
  cases relocated
  rfl

theorem Show.beside {task : Task} {question : Question} (shown : Show task question before after) :
    before.Beside after := by
  rw [shown.same]
  exact .refl _

/-- A walk touches nothing but heap-object slots. -/
theorem walk_mild {task : Task} (walk : ∀ call, task ≠ .call call) (known : surroundings.Heard)
    (cell : Cell) : Service.Mild undisturbed known cell (task.perform image cell) := by
  have follows : (task.perform image).Follows (taskConduct image task fun _ _ => True) :=
    task_follows task
  refine (follows known cell).loosen ?_ ?_ fun _ _ _ => trivial
  · rintro heard before after (same | change)
    · show before.state.Beside after.state
      rw [same]
      exact .refl _
    · cases change with
      | call change => exact absurd rfl (walk _)
      | collect relocated => exact relocated.beside
  · rintro heard request before after asked
    cases asked with
    | engine asked => exact absurd rfl (walk _)
    | visitor shown => exact shown.beside

end Precompiled.Heap
