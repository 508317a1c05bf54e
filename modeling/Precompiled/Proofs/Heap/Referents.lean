import Precompiled.Proofs.Heap.Absence
import Precompiled.Proofs.Heap.Descriptors
import Precompiled.Proofs.Heap.Ownership

/-! Where the contents of reference tables come from. Tables are filled on several
paths, and the engine may call back between the look at a slot and the store. All
the same, whatever a slot holds came from a question about the slot's own
descriptor, from a class of that name that passed the gate, or from the collector,
who was shown what the slot held before. -/
namespace Precompiled

namespace Heap

open Relation (ReflTransGen)

variable {heap : Heap} {image : Image} {before after state : State} {call : Call} {task : Task}
  {index : Nat} {name descriptor : String} {klass : ClassRef}

/-! ## What a course knows -/

/-- A call came to a halt and left the heap in a state. -/
def HaltedIn (past : Past image) (call : Call) (state : State) : Prop :=
  ∃ moment ∈ past, moment.state.state = state ∧
    ((∃ request, moment.event = .asked (.call call) request) ∨
      ∃ reply, moment.event = .replied (.call call) reply)

/-- A live class of the name was presented to a call, fits the class of the blob that
the name leads to, and is bound to it. -/
def Binds (image : Image) (call : Call) (state : State) (name : String) (klass : ClassRef) : Prop :=
  ∃ view entry, Presents call view ∧ view.name = name ∧ view.klass = klass ∧
    Matches image entry view ∧ state.binding? klass = some entry.classId

/-- A live class is known under a name. -/
inductive ClassOf (past : Past image) (name : String) (klass : ClassRef) : Prop where
  /-- The engine said so. -/
  | told (loader : LoaderId)
    (told : Service.heard past (.engine (.findClass name loader)) (some klass))
  /-- The class passed the gate. -/
  | admitted (call : Call) (state : State) (halted : HaltedIn past call state)
    (bound : Binds image call state name klass)

/-- The engine resolved a descriptor to a value, for whatever holder. -/
def MetadataOf (past : Past image) (descriptor : String) (value : MetadataRef) : Prop :=
  ∃ holder, Service.heard past (.engine (.resolveMetadata descriptor holder)) (some value)

/-- The collector said where an object is to be: asked for it, or in the moves that
it handed over. -/
def Moved (past : Past image) (object : ObjectRef) (value : Option ObjectRef) : Prop :=
  Service.heard past (.relocate object) value ∨
    ∃ moves state, HaltedIn past (.updateObjects moves) state ∧ value = Got.moved moves object

/-- An object goes back to an answer for a descriptor, over moves of the collector. -/
inductive ObjectOf (told : String → ObjectRef → Prop)
    (moved : ObjectRef → Option ObjectRef → Prop) (descriptor : String) : ObjectRef → Prop where
  | told {object : ObjectRef} (said : told descriptor object) :
    ObjectOf told moved descriptor object
  | moved {old object : ObjectRef} (former : ObjectOf told moved descriptor old)
    (said : moved old (some object)) : ObjectOf told moved descriptor object

/-- The engine resolved a descriptor to an object. -/
def Resolved (past : Past image) (descriptor : String) (object : ObjectRef) : Prop :=
  Service.heard past (.engine (.resolveObject descriptor)) (some object)

theorem ObjectOf.mono {told later : String → ObjectRef → Prop}
    {moved onward : ObjectRef → Option ObjectRef → Prop} {object : ObjectRef}
    (known : ObjectOf told moved descriptor object)
    (more : ∀ descriptor object, told descriptor object → later descriptor object)
    (further : ∀ old value, moved old value → onward old value) :
    ObjectOf later onward descriptor object := by
  induction known with
  | told said => exact .told (more _ _ said)
  | moved former said ih => exact .moved ih (further _ _ said)

/-! ## What tables hold -/

/-- Every slot holds what is known of its own descriptor. -/
structure Traced (image : Image) (classes : String → ClassRef → Prop)
    (metadata : String → MetadataRef → Prop) (objects : String → ObjectRef → Prop)
    (state : State) : Prop where
  metaspace : ∀ index klass, state.metaspace.get index = some klass →
    ∃ name, image.library.metaspaceName index = .ok name ∧ classes name klass
  metadata : ∀ index value, state.metadata.get index = some value →
    ∃ codeId localIndex descriptor, metadataSlot image codeId localIndex = .ok (descriptor, index) ∧
      metadata descriptor value
  objects : ∀ index object, state.objects.get index = some object →
    ∃ descriptor, image.library.objectName index = .ok descriptor ∧ objects descriptor object

section Traced

variable {classes known : String → ClassRef → Prop} {metadata : String → MetadataRef → Prop}
  {objects : String → ObjectRef → Prop}

theorem Traced.of_same (traced : Traced image classes metadata objects before)
    (metaspace : after.metaspace = before.metaspace) (metadataSame : after.metadata = before.metadata)
    (objectsSame : after.objects = before.objects) :
    Traced image classes metadata objects after where
  metaspace := metaspace ▸ traced.metaspace
  metadata := metadataSame ▸ traced.metadata
  objects := objectsSame ▸ traced.objects

theorem Traced.mono {others : String → MetadataRef → Prop} {things : String → ObjectRef → Prop}
    (traced : Traced image classes metadata objects state)
    (more : ∀ name klass, classes name klass → known name klass)
    (further : ∀ descriptor value, metadata descriptor value → others descriptor value)
    (onward : ∀ descriptor object, objects descriptor object → things descriptor object) :
    Traced image known others things state where
  metaspace index klass held := by
    obtain ⟨name, named, is⟩ := traced.metaspace index klass held
    exact ⟨name, named, more _ _ is⟩
  metadata index value held := by
    obtain ⟨codeId, localIndex, descriptor, named, is⟩ := traced.metadata index value held
    exact ⟨codeId, localIndex, descriptor, named, further _ _ is⟩
  objects index object held := by
    obtain ⟨descriptor, named, is⟩ := traced.objects index object held
    exact ⟨descriptor, named, onward _ _ is⟩

/-- What is said about slots of the metaspace table alone leaves the others be. -/
theorem Traced.replace (traced : Traced image classes metadata objects before)
    (metadataSame : after.metadata = before.metadata) (objectsSame : after.objects = before.objects)
    (source : ∀ index klass, after.metaspace.get index = some klass →
      before.metaspace.get index = some klass ∨
        ∃ name, image.library.metaspaceName index = .ok name ∧ classes name klass) :
    Traced image classes metadata objects after where
  metaspace index klass held := (source index klass held).elim (traced.metaspace index klass) id
  metadata := metadataSame ▸ traced.metadata
  objects := objectsSame ▸ traced.objects

end Traced

/-- The class that a name leads to has this name in its metaspace slot, and no two
references share a metadata slot. -/
structure Image.Labelled (image : Image) : Prop where
  classes : ∀ name entry index, lookupClass image name = .ok (some entry) →
    natural? entry.record.gotIndex = some index → image.library.metaspaceName index = .ok name
  metadata : ∀ codeId localIndex descriptor other otherIndex text index,
    metadataSlot image codeId localIndex = .ok (descriptor, index) →
    metadataSlot image other otherIndex = .ok (text, index) →
    other = codeId ∧ otherIndex = localIndex

theorem StandsFor.named (labelled : image.Labelled) (stands : StandsFor image index name) :
    image.library.metaspaceName index = .ok name := by
  rcases stands with named | ⟨entry, found, slot⟩
  · exact named
  · exact labelled.classes name entry index found slot

/-! ## Changes -/

theorem bindLoader_tables (classId : Nat) (loader : LoaderId) (state : State) :
    (state.bindLoader classId loader).2.metaspace = state.metaspace ∧
      (state.bindLoader classId loader).2.metadata = state.metadata ∧
      (state.bindLoader classId loader).2.objects = state.objects := by
  unfold State.bindLoader
  split <;> exact ⟨rfl, rfl, rfl⟩

/-- Claiming a place fills no slot but the metaspace slot of the class, and this one
only if it succeeds. -/
theorem claimPlace_source (entry : ClassEntry) (view : ClassView) (state : State) :
    (claimPlace entry view state).2.metadata = state.metadata ∧
      (claimPlace entry view state).2.objects = state.objects ∧
      ∀ index klass, (claimPlace entry view state).2.metaspace.get index = some klass →
        state.metaspace.get index = some klass ∨ (claimPlace entry view state).1 = true ∧
          natural? entry.record.gotIndex = some index ∧ klass = view.klass := by
  obtain ⟨metaspace, metadata, objects⟩ := bindLoader_tables entry.classId view.loader state
  unfold claimPlace
  split
  · exact ⟨rfl, rfl, fun _ _ held => .inl held⟩
  rename_i place slot
  split
  · exact ⟨rfl, rfl, fun _ _ held => .inl held⟩
  dsimp only
  split
  · exact ⟨metadata, objects, fun _ _ held => .inl (metaspace ▸ held)⟩
  refine ⟨metadata, objects, fun index klass held => ?_⟩
  rw [metaspace] at held ⊢
  rcases Got.setIfNull_source held with before | ⟨rfl, rfl⟩
  · exact .inl before
  · by_cases taken : (Got.setIfNull index view.klass state.metaspace).1 = some view.klass
    · exact .inr ⟨by simp [taken], slot, rfl⟩
    · exact .inl (Got.setIfNull_refused taken held)

theorem admitCode_tables (image : Image) (code : LinkedCode) (state : State) :
    (state.admitCode image code).2.metaspace = state.metaspace ∧
      (state.admitCode image code).2.metadata = state.metadata ∧
      (state.admitCode image code).2.objects = state.objects := by
  unfold State.admitCode
  split
  · exact ⟨rfl, rfl, rfl⟩
  · split
    · exact ⟨rfl, rfl, rfl⟩
    · split <;> exact ⟨rfl, rfl, rfl⟩

theorem Install.tables {code : LinkedCode} (installed : Install image code before after) :
    after.metaspace = before.metaspace ∧ after.metadata = before.metadata ∧
      after.objects = before.objects := by
  cases installed with
  | slot found unresolved free =>
    exact admitCode_tables image code { before with
      slots := before.slots.set code.codeId (Slot.publish code _).2 }

section Steps

variable {past : Past image} {heard : surroundings.Heard}

/-- The task binds a live class under a name. -/
def Task.Binds (image : Image) (task : Task) (state : State) (name : String) (klass : ClassRef) :
    Prop :=
  ∃ call, task = .call call ∧ Heap.Binds image call state name klass

/-- What is known while a task is at work, which has not come to a halt yet. -/
def Underway (past : Past image) (task : Task) (state : State) : Prop :=
  Traced image (fun name klass => ClassOf past name klass ∨ task.Binds image state name klass)
    (MetadataOf past)
    (ObjectOf (Resolved past) fun old value => Moved past old value ∨
      ∃ moves, task = .call (.updateObjects moves) ∧ value = Got.moved moves old)
    state

/-- A call that presents a class drops no binding. -/
theorem Binds.change {told : Engine.signature.Heard} (binds : Binds image call before name klass)
    (change : Change image call told before after) : Binds image call after name klass := by
  obtain ⟨view, entry, presented, rfl, rfl, fits, bound⟩ := binds
  refine ⟨view, entry, presented, rfl, rfl, fits, ?_⟩
  rcases change.bindings (by cases presented <;> exact nofun) (by cases presented <;> exact nofun)
    with same | ⟨other, rival, shown, matched, -, rebound⟩
  · rwa [State.binding?, same]
  · obtain rfl : rival = view := by cases presented <;> cases shown <;> rfl
    obtain rfl : other = entry :=
      Option.some.inj (Except.ok.inj (matched.found.symm.trans fits.found))
    rw [rebound, if_pos rfl]

/-- What is known stays known when tables lose contents only. -/
theorem Underway.later (underway : Underway past task before)
    (binds : ∀ name klass, task.Binds image before name klass → task.Binds image after name klass)
    (metaspace : ∀ index klass, after.metaspace.get index = some klass →
      before.metaspace.get index = some klass)
    (metadata : after.metadata = before.metadata) (objects : after.objects = before.objects) :
    Underway past task after :=
  (underway.mono (fun name klass known => known.imp_right (binds name klass))
    (fun _ _ known => known) fun _ _ known => known).replace metadata objects
      fun index klass held => .inl (metaspace index klass held)

theorem Fill.traced (labelled : image.Labelled) (underway : Underway past (.call call) before)
    (filled : Fill image (engineHeard (Service.heard past)) before after) :
    Underway past (.call call) after := by
  cases filled with
  | metaspace named told =>
    refine underway.replace rfl rfl fun index klass held => ?_
    rcases Got.setIfNull_source held with before | ⟨rfl, rfl⟩
    · exact .inl before
    · exact .inr ⟨_, named.named labelled, .inl (.told _ told)⟩
  | metadata named told =>
    refine ⟨underway.metaspace, fun index value held => ?_, underway.objects⟩
    rcases Got.setIfNull_source held with before | ⟨rfl, rfl⟩
    · exact underway.metadata index value before
    · exact ⟨_, _, _, named, _, told⟩
  | object named told =>
    refine ⟨underway.metaspace, underway.metadata, fun index object held => ?_⟩
    rcases Got.setIfNull_source held with before | ⟨rfl, rfl⟩
    · exact underway.objects index object before
    · exact ⟨_, named, .told told⟩

/-- An object that the collector put into a slot goes back to the same answer as the
one that was there. -/
theorem Relocate.traced {moved : ObjectRef → Option ObjectRef → Prop}
    (underway : Underway past task before)
    (known : ∀ old value, moved old value → Moved past old value ∨
      ∃ moves, task = .call (.updateObjects moves) ∧ value = Got.moved moves old)
    (relocated : Relocate moved before after) : Underway past task after := by
  cases relocated with
  | slot said =>
    refine ⟨underway.metaspace, underway.metadata, fun index object held => ?_⟩
    rcases Got.replaceIf_source held with before | ⟨former, rfl⟩
    · exact underway.objects index object before
    · obtain ⟨descriptor, named, origin⟩ := underway.objects index _ former
      exact ⟨descriptor, named, .moved origin (known _ _ said)⟩

/-- A class that takes its place does so under the name that was presented. -/
theorem bind_traced (labelled : image.Labelled) (underway : Underway past (.call call) before)
    {entry : ClassEntry} {view : ClassView} (presented : Presents call view)
    (fits : Matches image entry view)
    (binds : ∀ name klass, (Task.call call).Binds image before name klass →
      (Task.call call).Binds image ((claimPlace entry view before).2.bind view.klass entry.classId)
        name klass) :
    Underway past (.call call)
      ((claimPlace entry view before).2.bind view.klass entry.classId) := by
  obtain ⟨metadata, objects, source⟩ := claimPlace_source entry view before
  have kept := Traced.mono underway (fun name klass known => known.imp_right (binds name klass))
    (fun _ _ known => known) fun _ _ known => known
  refine kept.replace metadata objects fun index klass held => ?_
  rcases source index klass held with earlier | ⟨-, slot, rfl⟩
  · exact .inl earlier
  · refine .inr ⟨view.name, labelled.classes _ _ _ fits.found slot, .inr ⟨call, rfl, ?_⟩⟩
    exact ⟨view, entry, presented, rfl, rfl, fits, by simp⟩

theorem Change.traced (labelled : image.Labelled) (underway : Underway past (.call call) before)
    (change : Change image call (engineHeard (Service.heard past)) before after) :
    Underway past (.call call) after := by
  have binds : ∀ name klass, (Task.call call).Binds image before name klass →
      (Task.call call).Binds image after name klass := by
    rintro name klass ⟨_, ⟨⟩, bound⟩
    exact ⟨call, rfl, bound.change change⟩
  have same := underway.later binds
  cases change with
  | link linked =>
    cases linked with
    | fill filled => exact filled.traced labelled underway
    | stray known found resolved free => exact same (fun _ _ held => held) rfl rfl
  | revoke revoked => cases revoked <;> exact same (fun _ _ held => held) rfl rfl
  | @refuse entry view fits taken =>
    obtain ⟨metadata, objects, source⟩ := claimPlace_source entry view before
    refine same (fun index klass held => ?_) metadata objects
    rcases source index klass held with earlier | ⟨claimed, -⟩
    · exact earlier
    · simp [taken] at claimed
  | bind presented fits unbound claimed => exact bind_traced labelled underway presented fits binds
  | unbind gone => exact same (fun _ _ held => held) rfl rfl
  | drop gone dropped =>
    cases dropped with
    | slot => exact same (fun _ _ held => Got.replaceIf_none_fewer held) rfl rfl
  | relocate collected relocated =>
    refine relocated.traced underway fun old value said => .inr ?_
    exact ⟨_, by rw [collected], said⟩
  | routines addresses => exact same (fun _ _ held => held) rfl rfl
  | disable => exact same (fun _ _ held => held) rfl rfl
  | @count code given =>
    obtain ⟨metaspace, metadata, objects⟩ := admitCode_tables image code before
    exact same (fun _ _ held => metaspace ▸ held) metadata objects

/-- No change of a task brings anything into a slot but what is known of the slot's own
descriptor. -/
theorem Task.Change.traced (labelled : image.Labelled) (underway : Underway past task before)
    (change : Task.Change image task (Service.heard past) before after) :
    Underway past task after := by
  cases change with
  | call change => exact Heap.Change.traced labelled underway change
  | collect relocated => exact relocated.traced underway fun old value said => .inl (.inl said)

/-- The change before a question spares tables and bindings. -/
theorem Task.Ask.traced {question : Question} (underway : Underway past task before)
    (asked : Task.Ask image task question before after) : Underway past task after := by
  cases asked with
  | visitor shown => exact shown.same ▸ underway
  | @engine call request before after asked =>
    have binds : ∀ name klass, (Task.call call).Binds image before name klass →
        (Task.call call).Binds image after name klass := by
      rintro name klass ⟨_, ⟨⟩, view, entry, presented, named, own, fits, bound⟩
      exact ⟨call, rfl, view, entry, presented, named, own, fits,
        by rwa [State.binding?, asked.bindings]⟩
    cases asked with
    | install known installed =>
      obtain ⟨metaspace, metadata, objects⟩ := installed.tables
      exact underway.later binds (fun _ _ held => metaspace ▸ held) metadata objects
    | deoptimize deoptimized =>
      cases deoptimized
      exact underway.later binds (fun _ _ held => held) rfl rfl
    | _ => exact underway

end Steps

/-! ## Throughout a course -/

section Courses

variable {past : Past image} {event : (service image).Event} {cell : Cell}

/-- What tables hold is known from the past. -/
def Recorded (past : Past image) (state : State) : Prop :=
  Traced image (ClassOf past) (MetadataOf past) (ObjectOf (Resolved past) (Moved past)) state

theorem HaltedIn.later (halted : HaltedIn past call state) (moment : (service image).Moment) :
    HaltedIn (moment :: past) call state := by
  obtain ⟨earlier, among, rest⟩ := halted
  exact ⟨earlier, List.mem_cons_of_mem _ among, rest⟩

theorem ClassOf.later (known : ClassOf past name klass) (moment : (service image).Moment) :
    ClassOf (moment :: past) name klass := by
  cases known with
  | told loader told => exact .told loader (Service.heard_grows moment past _ _ told)
  | admitted call state halted bound => exact .admitted call state (halted.later moment) bound

theorem Moved.later {object : ObjectRef} {value : Option ObjectRef} (moved : Moved past object value)
    (moment : (service image).Moment) : Moved (moment :: past) object value := by
  rcases moved with told | ⟨moves, state, halted, same⟩
  · exact .inl (Service.heard_grows moment past _ _ told)
  · exact .inr ⟨moves, state, halted.later moment, same⟩

/-- More is known after another moment. -/
theorem Recorded.later (recorded : Recorded past state) (moment : (service image).Moment) :
    Recorded (moment :: past) state :=
  recorded.mono (fun _ _ known => known.later moment)
    (fun _ _ ⟨holder, told⟩ => ⟨holder, Service.heard_grows moment past _ _ told⟩)
    fun _ _ known => known.mono (fun _ _ told => Service.heard_grows moment past _ _ told)
      fun _ _ moved => moved.later moment

theorem Recorded.underway (recorded : Recorded past state) (task : Task) :
    Underway past task state :=
  recorded.mono (fun _ _ known => .inl known) (fun _ _ known => known)
    fun _ _ known => known.mono (fun _ _ told => told) fun _ _ moved => .inl moved

/-- At its halt the work of a task becomes part of the past. -/
theorem Underway.halted (underway : Underway past task cell.state)
    (halts : ∀ call, task = .call call → (∃ request, event = .asked (.call call) request) ∨
      ∃ reply, event = .replied (.call call) reply) :
    Recorded (⟨event, cell⟩ :: past) cell.state := by
  have halted : ∀ call, task = .call call → HaltedIn (⟨event, cell⟩ :: past) call cell.state :=
    fun call same => ⟨_, List.mem_cons_self, rfl, halts call same⟩
  refine underway.mono ?_ ?_ ?_
  · rintro name klass (known | ⟨call, same, bound⟩)
    · exact known.later _
    · exact .admitted call cell.state (halted call same) bound
  · rintro descriptor value ⟨holder, told⟩
    exact ⟨holder, Service.heard_grows _ _ _ _ told⟩
  · intro descriptor object known
    refine known.mono (fun _ _ told => Service.heard_grows _ _ _ _ told) ?_
    rintro old value (moved | ⟨moves, same, is⟩)
    · exact moved.later _
    · exact .inr ⟨moves, cell.state, halted _ same, is⟩

theorem Recorded.changes (labelled : image.Labelled) {before after : Cell}
    (recorded : Recorded past before.state)
    (changes : ReflTransGen ((customs image State.Grows).change task (Service.heard past))
      before after) : Underway past task after.state := by
  induction changes with
  | refl => exact recorded.underway task
  | tail _ change ih =>
    rcases change with same | change
    · exact same ▸ ih
    · exact change.traced labelled ih

theorem recorded_sustained (labelled : image.Labelled) :
    (customs image State.Grows).Sustains (fun _ => True) fun past cell =>
      Recorded past cell.state where
  asked _ recorded changes asked := by
    refine (asked.traced (recorded.changes labelled changes)).halted ?_
    rintro call rfl
    exact .inl ⟨_, rfl⟩
  replied _ recorded changes _ := by
    refine (recorded.changes labelled changes).halted ?_
    rintro call rfl
    exact .inr ⟨_, rfl⟩
  called _ recorded := recorded.later _
  answered _ recorded := recorded.later _
  drifted recorded drifted := drifted ▸ recorded

end Courses

/-- In whatever order tasks are begun and questions answered, tables stay recorded. -/
theorem Reaches.recorded {admits : (service heap.image).Course → Task → Prop}
    {course : (service heap.image).Course} (labelled : heap.image.Labelled)
    (null : Traced heap.image (fun _ _ => False) (fun _ _ => False) (fun _ _ => False) heap.state)
    (reached : Reaches heap admits course) : Recorded course.past course.state.state := by
  obtain ⟨counters, journal, reached⟩ := reached
  refine Service.Reaches.holding (customs_kept fun _ => True) (recorded_sustained labelled)
    (fun _ _ _ => trivial) ?_ reached
  exact null.mono (fun _ _ => False.elim) (fun _ _ => False.elim) fun _ _ => False.elim

/-! ## Built blobs -/

theorem Settles.tables {records : List Blob.CodeRecord} (settles : Settles image records before after) :
    after.metaspace = before.metaspace ∧ after.metadata = before.metadata ∧
      after.objects = before.objects := by
  induction settles with
  | refl => exact ⟨rfl, rfl, rfl⟩
  | tail _ step ih =>
    obtain ⟨record, -, stub, -, installed⟩ := step
    obtain ⟨metaspace, metadata, objects⟩ := installed.tables
    exact ⟨metaspace.trans ih.1, metadata.trans ih.2.1, objects.trans ih.2.2⟩

/-- The tables of a new heap are empty. -/
theorem created_null {library : Library} {journal : Journal}
    (created : ((Heap.create library).run journal).1 = .ok heap) :
    Traced heap.image (fun _ _ => False) (fun _ _ => False) (fun _ _ => False) heap.state := by
  obtain ⟨stubs, -, settled⟩ := create_ok.mp created
  obtain ⟨settles, -⟩ := settleAll_settles (fun _ member => member) initial_pristine settled
  obtain ⟨metaspace, metadata, objects⟩ := settles.tables
  constructor
  · intro index klass held
    rw [metaspace] at held
    cases (Got.get_empty _ index).symm.trans held
  · intro index value held
    rw [metadata] at held
    cases (Got.get_empty _ index).symm.trans held
  · intro index object held
    rw [objects] at held
    cases (Got.get_empty _ index).symm.trans held

section Built

open Blob

variable {edits : List Edit} {settings : BuildSettings} {engineVersion name : String} {id : Nat}
  {options : LoadOptions} {loading journal : Journal} {library : Library}

/-- Every class has a metaspace slot of its name. -/
theorem summary_listed : ∀ owner ∈ (Edits.summary settings engineVersion edits).classes,
    (Edits.summary settings engineVersion edits).metaspaceNames[owner.gotIndex]? =
      some owner.name := by
  intro owner member
  obtain ⟨classId, inside, rfl⟩ := List.mem_mapIdx.mp member
  exact List.getElem?_idxOf (Edits.class_has_slot (List.getElem_mem inside))

/-- A heap finds the metadata slots of a built blob where they were laid out. -/
theorem built_slots (known : Edits.Known edits)
    (fits : (Draft.describe settings engineVersion edits).Fits)
    (loaded : ((Library.load (Draft.describe settings engineVersion edits).assemble name id
      options).run loading).1 = .ok library)
    (created : ((Heap.create library).run journal).1 = .ok heap) {codeId localIndex : Nat} :
    metadataSlot heap.image codeId localIndex = .ok (descriptor, index) ↔
      (Draft.describe settings engineVersion edits).OwnsSlot codeId localIndex descriptor index := by
  obtain ⟨assembled, stubs, prepared, -⟩ := built_prepared known fits.addressable loaded created
  rw [Edits.describe_eq known] at fits ⊢
  refine Draft.metadataSlot_iff assembled fits prepared fun other code found => ?_
  obtain ⟨owner, added⟩ := Edits.code_of_summary found
  obtain ⟨owned, recorded, -⟩ := Edits.owner_recorded known fits assembled prepared added
  exact ⟨owned, recorded⟩

/-- The slots of a built blob have descriptors of their own. -/
theorem built_labelled (known : Edits.Known edits)
    (fits : (Draft.describe settings engineVersion edits).Fits)
    (loaded : ((Library.load (Draft.describe settings engineVersion edits).assemble name id
      options).run loading).1 = .ok library)
    (created : ((Heap.create library).run journal).1 = .ok heap) : heap.image.Labelled := by
  constructor
  · intro text entry index found slot
    obtain ⟨assembled, -, -, -⟩ := built_prepared known fits.addressable loaded created
    rw [Edits.describe_eq known] at fits
    exact Draft.metaspaceName_of_class assembled fits summary_listed
      (Draft.lookupClass_record assembled fits found) slot
  · intro codeId localIndex descriptor other otherIndex text index first second
    have own := (built_slots known fits loaded created).mp second
    obtain ⟨code, place, -⟩ := own.unique ((built_slots known fits loaded created).mp first)
    exact ⟨code, place⟩

/-- Where the contents of the reference tables of a heap come from, if its library was
assembled from the draft. -/
structure Provenance (draft : Draft) (heap : Heap) (course : (service heap.image).Course) :
    Prop where
  classes : ∀ index klass, course.state.state.metaspace.get index = some klass →
    ∃ name, heap.image.library.metaspaceName index = .ok name ∧ ClassOf course.past name klass
  /-- The heap looks for metadata in the slots that were laid out for it. -/
  slots : ∀ codeId localIndex descriptor index,
    metadataSlot heap.image codeId localIndex = .ok (descriptor, index) ↔
      draft.OwnsSlot codeId localIndex descriptor index
  /-- A metadata slot belongs to one reference of one piece of code, and holds what
  the engine said about this one. -/
  metadata : ∀ index value, course.state.state.metadata.get index = some value →
    ∃ codeId localIndex descriptor, draft.OwnsSlot codeId localIndex descriptor index ∧
      (∀ other otherIndex text, draft.OwnsSlot other otherIndex text index →
        other = codeId ∧ otherIndex = localIndex ∧ text = descriptor) ∧
      MetadataOf course.past descriptor value
  objects : ∀ index object, course.state.state.objects.get index = some object →
    ∃ descriptor, heap.image.library.objectName index = .ok descriptor ∧
      ObjectOf (Resolved course.past) (Moved course.past) descriptor object
  /-- No slot holds a class that is known under other names only. -/
  classesApart : ∀ index klass name, course.state.state.metaspace.get index = some klass →
    (∀ other, ClassOf course.past other klass → other = name) →
    heap.image.library.metaspaceName index = .ok name
  /-- No slot holds what the engine said about other descriptors only. -/
  metadataApart : ∀ index value descriptor, course.state.state.metadata.get index = some value →
    (∀ other, MetadataOf course.past other value → other = descriptor) →
    ∃ codeId localIndex, draft.OwnsSlot codeId localIndex descriptor index
  /-- No slot holds an object that goes back to other descriptors only. -/
  objectsApart : ∀ index object descriptor, course.state.state.objects.get index = some object →
    (∀ other, ObjectOf (Resolved course.past) (Moved course.past) other object →
      other = descriptor) →
    heap.image.library.objectName index = .ok descriptor

theorem provenance_of_recorded {draft : Draft} {course : (service heap.image).Course}
    (slots : ∀ codeId localIndex descriptor index,
      metadataSlot heap.image codeId localIndex = .ok (descriptor, index) ↔
        draft.OwnsSlot codeId localIndex descriptor index)
    (recorded : Recorded course.past course.state.state) : Provenance draft heap course where
  classes := recorded.metaspace
  slots := slots
  metadata index value held := by
    obtain ⟨codeId, localIndex, descriptor, named, is⟩ := recorded.metadata index value held
    have owns := (slots _ _ _ _).mp named
    exact ⟨codeId, localIndex, descriptor, owns, fun _ _ _ rival => rival.unique owns, is⟩
  objects := recorded.objects
  classesApart index klass name held only := by
    obtain ⟨own, named, is⟩ := recorded.metaspace index klass held
    rwa [← only own is]
  metadataApart index value descriptor held only := by
    obtain ⟨codeId, localIndex, own, named, is⟩ := recorded.metadata index value held
    obtain rfl := only own is
    exact ⟨codeId, localIndex, (slots _ _ _ _).mp named⟩
  objectsApart index object descriptor held only := by
    obtain ⟨own, named, is⟩ := recorded.objects index object held
    rwa [← only own is]

/-- In every heap of a built blob, whatever tasks are begun and whatever the engine
and the collector answer, also when they call back, each slot of a reference table
holds what belongs to its own descriptor. -/
theorem reference_provenance (known : Edits.Known edits)
    (fits : (Draft.describe settings engineVersion edits).Fits)
    (loaded : ((Library.load (Draft.describe settings engineVersion edits).assemble name id
      options).run loading).1 = .ok library)
    (created : ((Heap.create library).run journal).1 = .ok heap)
    {course : (service heap.image).Course} (reached : Reaches heap (fun _ _ => True) course) :
    Provenance (Draft.describe settings engineVersion edits) heap course := by
  have labelled := built_labelled known fits loaded created
  refine provenance_of_recorded ?_ (reached.recorded labelled (created_null created))
  exact fun _ _ _ _ => built_slots known fits loaded created

end Built

/-! ## A class that refers to everything -/

open Blob

/-- A class with a method that refers to a class, an object and a piece of metadata. -/
def furnished : List Edit :=
  [.addClass "A" 7, .addMetaspaceSlot "BB", .addObjectSlot "ooo",
   .addMethod 0 { name := "m", signature := "()V", metadata := ["xxxx"], classRefs := [1],
                  objectRefs := [0] }]

/-- An engine that finds something for every descriptor, and a collector that moves every
object. -/
def generous : (question : Question) → question.Answer
  | .engine (.findClass name _) => Handle.ofRaw? (UInt64.ofNat name.length)
  | .engine (.resolveMetadata descriptor _) => Handle.ofRaw? (UInt64.ofNat descriptor.length)
  | .engine (.resolveObject descriptor) => Handle.ofRaw? (UInt64.ofNat descriptor.length)
  | .relocate object => Handle.ofRaw? (object.raw + 10)
  | other => lavish other

/-- The class is loaded, and then the collector goes through the objects. -/
def furnishedTasks : List Task :=
  [.call (.loadClass sampleView), .collect]

def furnishedCell (heap : Heap) : Cell :=
  Service.carryOut generous (service heap.image) furnishedTasks { state := heap.state }

/-- What the slots of a table hold. -/
def contents {entity : Entity} (table : Got (Handle entity)) : List (Option UInt64) :=
  table.slots.map (Option.map Handle.raw)

set_option maxRecDepth 1000000 in
theorem furnished_filled : (built? furnished).any (fun built =>
    let last := (furnishedCell built.2).state
    contents last.metaspace == [some 1, some 2] && contents last.metadata == [some 4] &&
      contents last.objects == [some 13]) = true := by
  decide +kernel

theorem reference_provenance_sample : ∃ (library : Library) (heap : Heap)
    (course : (service heap.image).Course),
    ((Library.load (Draft.describe {} "1" furnished).assemble "lib" 0
      { verifyChecksum := false }).run []).1 = .ok library ∧
    ((Heap.create library).run []).1 = .ok heap ∧ Reaches heap (fun _ _ => True) course ∧
    contents course.state.state.metaspace = [some 1, some 2] ∧
    contents course.state.state.metadata = [some 4] ∧
    contents course.state.state.objects = [some 13] ∧
    Provenance (Draft.describe {} "1" furnished) heap course := by
  obtain ⟨⟨library, heap⟩, built, filled⟩ := (Option.any_eq_true _ _).mp furnished_filled
  obtain ⟨loaded, created⟩ := built_some built
  simp only [Bool.and_eq_true, beq_iff_eq] at filled
  have known : Edits.Known furnished := by decide
  have fits : (Draft.describe {} "1" furnished).Fits := Draft.fits_of_length (by decide +kernel)
  let start : (service heap.image).Course := { state := { state := heap.state } }
  obtain ⟨course, onward, -, state⟩ : ∃ course,
      ReflTransGen (Service.Step fun _ _ => True) start course ∧ course.pending = [] ∧
        course.state = Service.carryOut generous (service heap.image) furnishedTasks start.state :=
    start.carries_out generous furnishedTasks rfl fun _ _ _ _ => trivial
  have reached : Reaches heap (fun _ _ => True) course := ⟨{}, [], onward⟩
  have ended : course.state = furnishedCell heap := state
  rw [← ended] at filled
  obtain ⟨⟨classes, metadata⟩, objects⟩ := filled
  exact ⟨library, heap, course, loaded, created, reached, classes, metadata, objects,
    reference_provenance known fits loaded created reached⟩

end Heap

end Precompiled
