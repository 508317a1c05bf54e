import Precompiled.Proofs.Heap.Parts
import Precompiled.Proofs.Heap.Provenance
import Precompiled.Proofs.Heap.Viewpoints

/-! The metadata of methods. A method is put into use only after each of its metadata
slots was resolved, and although others may be at work in between, nothing ever empties a
metadata slot. So whatever method a heap holds, all its metadata is there. -/
namespace Precompiled.Heap

open Blob

variable {heap : Heap} {image : Image} {before middle after state : State} {call : Call}
  {code : LinkedCode} {entry : ClassEntry} {view : ClassView} {α : Type}

/-! ## What the table of metadata keeps -/

/-- Metadata slots keep the values that they have. -/
def State.KeepsMetadata (before after : State) : Prop :=
  ∀ index value, before.metadata.get index = some value → after.metadata.get index = some value

namespace State.KeepsMetadata

theorem of_same (same : after.metadata = before.metadata) : before.KeepsMetadata after :=
  fun index value held => by rwa [same]

theorem refl (state : State) : state.KeepsMetadata state :=
  of_same rfl

theorem trans (early : before.KeepsMetadata middle) (late : middle.KeepsMetadata after) :
    before.KeepsMetadata after :=
  fun index value held => late index value (early index value held)

end State.KeepsMetadata

theorem admitCode_metadata (image : Image) (code : LinkedCode) (state : State) :
    (state.admitCode image code).2.metadata = state.metadata := by
  rw [(admitCode_slot? image code state).1]

theorem Revoke.metadata (revoked : Revoke before after) : after.metadata = before.metadata := by
  cases revoked <;> rfl

theorem Install.metadata (installed : Install image code before after) :
    after.metadata = before.metadata := by
  cases installed
  exact admitCode_metadata _ _ _

/-- Whatever leads to a question leaves the metadata alone. -/
theorem Ask.metadata {source : LinkedCode → Prop} {request : Engine.Request}
    (asked : Ask image source request before after) : after.metadata = before.metadata := by
  cases asked with
  | install known installed => exact installed.metadata
  | deoptimize deoptimized =>
    cases deoptimized
    rfl
  | _ => rfl

theorem Link.keepsMetadata {source : LinkedCode → Prop} {heard : Engine.signature.Heard}
    (linked : Link image source heard before after) : before.KeepsMetadata after := by
  cases linked with
  | stray => exact .of_same rfl
  | fill filled =>
    cases filled with
    | metaspace => exact .of_same rfl
    | metadata => exact fun other seen held => Got.setIfNull_get held
    | object => exact .of_same rfl

/-- No change takes a value out of a metadata slot. -/
theorem Change.keepsMetadata {heard : Engine.signature.Heard}
    (change : Change image call heard before after) : before.KeepsMetadata after := by
  cases change with
  | link linked => exact linked.keepsMetadata
  | revoke revoked => exact .of_same revoked.metadata
  | refuse => exact .of_same (by rw [claimPlace_reseated])
  | bind =>
    refine .of_same ?_
    rw [State.bind, claimPlace_reseated]
  | unbind => exact .of_same rfl
  | drop gone dropped =>
    cases dropped
    exact .of_same rfl
  | relocate collected relocated =>
    cases relocated
    exact .of_same rfl
  | routines => exact .of_same rfl
  | disable => exact .of_same rfl
  | count => exact .of_same (admitCode_metadata _ _ _)

theorem Task.Change.keepsMetadata {task : Task} {heard : surroundings.Heard}
    (change : Task.Change image task heard before after) : before.KeepsMetadata after := by
  cases change with
  | call change => exact Heap.Change.keepsMetadata change
  | collect relocated =>
    cases relocated
    exact .of_same rfl

theorem Ask.keepsMetadata {source : LinkedCode → Prop} {request : Engine.Request}
    (asked : Ask image source request before after) : before.KeepsMetadata after :=
  .of_same asked.metadata

theorem Task.Ask.keepsMetadata {task : Task} {question : Question}
    (asked : Task.Ask image task question before after) : before.KeepsMetadata after := by
  cases asked with
  | engine asked => exact Heap.Ask.keepsMetadata asked
  | visitor shown => exact .of_same (by rw [shown.same])

/-! ## Provided methods -/

/-- If the code is a method, there is a value in each of its metadata slots. -/
def Provided (code : LinkedCode) (state : State) : Prop :=
  code.isStub = false → ∀ index ∈ code.metadataSlots, ∃ value, state.metadata.get index = some value

theorem Provided.later (provided : Provided code before) (keeps : before.KeepsMetadata after) :
    Provided code after := by
  intro method index among
  obtain ⟨value, held⟩ := provided method index among
  exact ⟨value, keeps index value held⟩

/-- Every metadata slot of a piece of code was resolved. -/
def ShowsMetadata (image : Image) (codeId : Nat) (detail : CodeDetail) (state : State) : Prop :=
  ∀ localIndex ∈ List.range detail.metadataNames.length,
    Shows (metadataSlot image codeId localIndex) state.metadata

theorem Shows.later {described : Except Error (String × Nat)}
    (shows : Shows described before.metadata) (keeps : before.KeepsMetadata after) :
    Shows described after.metadata := by
  obtain ⟨descriptor, index, value, named, held⟩ := shows
  exact ⟨descriptor, index, value, named, keeps index value held⟩

theorem ShowsMetadata.later {codeId : Nat} {detail : CodeDetail}
    (shows : ShowsMetadata image codeId detail before) (keeps : before.KeepsMetadata after) :
    ShowsMetadata image codeId detail after :=
  fun localIndex among => (shows localIndex among).later keeps

/-- Code that is placed has its metadata where it was resolved. -/
theorem ShowsMetadata.provided {record : CodeRecord} {detail : CodeDetail} {name : MethodName}
    {live : Option MethodRef} {holder : Option ClassRef} {classId owner : Option Nat}
    (shows : ShowsMetadata image (slotNumber record) detail state)
    (own : image.record? (slotNumber record) = some ⟨record, owner⟩)
    (placed : image.place record detail name live holder classId = .ok code) :
    Provided code state := by
  obtain ⟨offset, start, geometry, rfl⟩ := place_ok.mp placed
  intro method index among
  have slots : (placedAt image record detail name live holder classId offset start).metadataSlots =
      List.range' start detail.metadataNames.length := by
    simp [LinkedCode.metadataSlots, placedAt]
  rw [slots, List.mem_range'_1] at among
  obtain ⟨localIndex, rfl⟩ := Nat.exists_eq_add_of_le among.1
  obtain ⟨descriptor, place, value, named, held⟩ := shows localIndex (List.mem_range.mpr (by omega))
  obtain ⟨owned, other, offset, first, found, read, -, -, begins, rfl⟩ :=
    Draft.metadataSlot_ok.mp named
  obtain rfl := Option.some.inj (own.symm.trans found)
  obtain rfl := Option.some.inj (geometry.slots.symm.trans begins)
  exact ⟨value, held⟩

/-! ## Calls -/

/-- How a call behaves that puts no method into use before it is provided. -/
def providentConduct (image : Image) (call : Call) : Conduct Engine.signature Cell :=
  stateConduct (Change image call)
    (fun request before after => Ask image (Source image call) request before after ∧
      ∀ code, request = .install code → Provided code before)
    State.KeepsMetadata

/-- What installs nothing installs nothing too early. -/
theorem provident_of_idle {change : Engine.signature.Heard → State → State → Prop}
    {source : LinkedCode → Prop} {operation : Operation α}
    {post : Engine.signature.Heard → α → Cell → Prop}
    (obeys : operation.Obeys (stateConduct change (Ask image source) State.KeepsMetadata) post)
    (idle : ∀ code, ¬source code)
    (allowed : ∀ heard before after, change heard before after →
      Change image call heard before after) :
    operation.Obeys (providentConduct image call) post := by
  intro heard cell
  refine (obeys heard cell).loosen ?_ ?_ fun _ _ keeps => keeps
  · exact fun heard before after changed => changed.imp_right (allowed heard _ _)
  · intro heard request before after asked
    refine ⟨asked.widen fun code known => (idle code known).elim, ?_⟩
    rintro code rfl
    cases asked with
    | install known => exact (idle code known).elim

/-- What a sweep may do is provident. -/
theorem swept_provident (name : String) {operation : Operation α}
    (follows : operation.Follows (callConduct image (.sweep name) State.KeepsMetadata)) :
    operation.Follows (providentConduct image call) :=
  provident_of_idle follows nofun fun _ _ _ change => change.of_sweep

/-- What resolves references and installs nothing is provident. -/
theorem resolved_provident {operation : Operation α}
    {post : Engine.signature.Heard → α → Cell → Prop}
    (obeys : operation.Obeys (linkConduct image (fun _ => False) State.KeepsMetadata) post) :
    operation.Obeys (providentConduct image call) post :=
  provident_of_idle obeys (fun _ => id) fun _ _ _ linked =>
    .link (linked.widen fun _ impossible => impossible.elim)

/-- What values in metadata slots bring about, linking spares. -/
theorem link_spares {source : LinkedCode → Prop} {kept : State → Prop}
    (lasting : ∀ before after, kept before → before.KeepsMetadata after → kept after) :
    (linkConduct image source State.KeepsMetadata).Spares fun cell => kept cell.state where
  changed held change := by
    rcases change with same | linked
    · rwa [same]
    · exact lasting _ _ held linked.keepsMetadata
  asked held asked := lasting _ _ held asked.keepsMetadata

/-- Publishing code that is provided is provident. -/
theorem publish_provident {heard : Engine.signature.Heard} {cell : Cell}
    (known : Source image call code) (provided : Provided code cell.state) :
    (publish image code cell).Obeys (providentConduct image call) (fun _ _ _ => True) heard cell := by
  have published : (publish image code).Follows
      (linkConduct image (fun other => other = code) State.KeepsMetadata) := publish_follows rfl
  have mindful := (published heard cell).mindful (link_spares fun _ _ => Provided.later)
    (fun _ _ => Provided.later) provided
  refine mindful.loosen ?_ ?_ fun _ _ keeps => keeps
  · exact fun heard before after changed => changed.imp_right fun linked =>
      .link (linked.widen fun other same => same ▸ known)
  · rintro heard request before after ⟨asked, still⟩
    refine ⟨asked.widen fun other same => same ▸ known, ?_⟩
    rintro other rfl
    cases asked with
    | install same => exact same ▸ still

/-- A metadata slot that could be resolved holds a value. -/
theorem resolveMetadata_shows {source : LinkedCode → Prop} (codeId localIndex : Nat)
    (holder : ClassView) :
    (resolveMetadata image codeId localIndex holder).Obeys
      (linkConduct image source State.KeepsMetadata) fun _ outcome cell => ∀ value,
        outcome = .ok value → Shows (metadataSlot image codeId localIndex) cell.state.metadata := by
  unfold resolveMetadata
  cases named : metadataSlot image codeId localIndex with
  | error error => exact fun heard cell => ⟨.refl, nofun⟩
  | ok slot =>
    obtain ⟨descriptor, index⟩ := slot
    have resolves : (Got.getOrResolve Cell.metadata index
        (Operation.ask (.resolveMetadata descriptor holder))).Obeys
        (linkConduct image source State.KeepsMetadata) _ :=
      obeys_resolve (fun _ _ => rfl)
        (fun heard answer => heard (.resolveMetadata descriptor holder) answer)
        (obeys_ask fun state => .resolveMetadata descriptor holder)
        fun heard value cell told => .fill (.metadata named told)
    refine resolves.bind fun value heard cell held => ⟨.refl, ?_⟩
    cases value with
    | none => exact nofun
    | some value => exact fun _ _ => ⟨descriptor, index, value, rfl, held value rfl⟩

/-- When all references of a piece of code are resolved, its metadata is there. -/
theorem resolveReferences_shows {source : LinkedCode → Prop} (codeId : Nat) (detail : CodeDetail)
    (view : ClassView) :
    (resolveReferences image codeId detail view).Obeys
      (linkConduct image source State.KeepsMetadata) fun _ outcome cell => outcome = .ok () →
        ShowsMetadata image codeId detail cell.state := by
  refine Action.Obeys.bind (follows_forEach (fun index => resolveMetaspace_follows _ _) _)
    fun classes heard cell _ => ?_
  cases classes with
  | error error => exact ⟨.refl, nofun⟩
  | ok _ =>
    have resolved : (forEach (fun localIndex => resolveMetadata image codeId localIndex view)
        (List.range detail.metadataNames.length)).Obeys
        (linkConduct image source State.KeepsMetadata) _ :=
      obeys_forEach (fun localIndex => resolveMetadata_shows codeId localIndex view)
        (fun localIndex => link_spares fun _ _ => Shows.later) (fun _ _ _ => Shows.later) _
    refine Action.Obeys.bind resolved (fun metadata heard cell shows => ?_) heard cell
    cases metadata with
    | error error => exact ⟨.refl, nofun⟩
    | ok _ =>
      -- objects are resolved last, which leaves the metadata alone
      have objects : (forEach (fun index : UInt32 => resolveObject image index.toNat)
          detail.objectRefs).Follows (linkConduct image source State.KeepsMetadata) :=
        follows_forEach (fun index => resolveObject_follows _) _
      refine ((objects heard cell).keeps (link_spares fun _ _ => ShowsMetadata.later)
        (fun _ _ => ShowsMetadata.later) (shows rfl)).weaken ?_
      exact fun _ _ _ _ kept _ => kept.2

/-- Linking a method is provident. -/
theorem publishMethod_provident (registered : image.Registered)
    (known : image.classEntry? entry.classId = some entry) {records : List CodeRecord}
    (listed : image.library.methodsOf entry.record = .ok records) {record : CodeRecord}
    (among : record ∈ records) :
    (publishMethod image entry view record).Follows (providentConduct image (.loadClass view)) := by
  refine follows_publishMethod (fun name state => ⟨.findMethod view.klass name, nofun⟩) ?_
  intro name detail live named detailed heard cell
  have own := registered entry record known (mem_methods.mpr ⟨records, listed, among⟩)
  have shows : (resolveReferences image (slotNumber record) detail view).Obeys
      (providentConduct image (.loadClass view)) _ :=
    resolved_provident (resolveReferences_shows (slotNumber record) detail view)
  refine (shows heard cell).weaken ?_
  intro later outcome after _ there done code placed
  refine publish_provident (.linked ⟨known, records, record, detail, name, live, listed, among,
    detailed, named, placed⟩) ?_
  exact (there done).provided own placed

theorem loadClass_provident (registered : image.Registered) (view : ClassView) :
    (loadClass image view).Follows (providentConduct image (.loadClass view)) := by
  intro heard cell
  by_cases disabled : cell.state.linkageDisabled = true
  · rw [loadClass_disabled disabled]
    exact ⟨.refl, trivial⟩
  -- matching asks nothing, so nothing is installed before the class is known
  obtain ⟨outcome, middle, ran⟩ := resolveClass_silent image view cell
  have matched : (resolveClass image view).Obeys
      (callConduct image (.loadClass view) State.KeepsMetadata) _ :=
    resolveClass_obeys (.loadClass view)
  have came := matched heard cell
  rw [ran] at came
  obtain ⟨changes, known⟩ := came
  rw [loadClass_enabled (by simpa using disabled) ran]
  have opening : Relation.ReflTransGen
      ((providentConduct image (.loadClass view)).change heard) cell middle := changes
  apply Dialogue.Obeys.after _ opening
  refine follows_finishLoad (fun miss _ => swept_provident view.name (afterMiss_follows miss))
    (swept_provident view.name ensureRoutines_follows) (fun entry records same listed => ?_)
    heard middle
  exact follows_publishMethods fun record among =>
    publishMethod_provident registered (known entry same).1 listed among

/-- Every call is provident, if code that it is given to publish is provided. -/
theorem perform_provident (registered : image.Registered) {heard : Engine.signature.Heard}
    {cell : Cell} (given : ∀ code, call = .publish code → Provided code cell.state) :
    (perform image call cell).Obeys (providentConduct image call) (fun _ _ _ => True) heard cell := by
  have others (idle : ∀ code, ¬Source image call code) :
      (perform image call).Follows (providentConduct image call) :=
    provident_of_idle (perform_follows call) idle fun _ _ _ change => change
  cases call with
  | loadClass view => exact loadClass_provident registered view heard cell
  | publish code => exact publish_provident (.given code) (given code rfl)
  | _ => exact others nofun heard cell

/-! ## Courses -/

/-- Nobody puts a method into use before it is provided. -/
def providence (image : Image) : (service image).Customs where
  change task := (taskConduct image task State.KeepsMetadata).change
  question task _ request before after := Task.Ask image task request before.state after.state ∧
    ∀ code, request = .engine (.install code) → Provided code before.state
  rely before after := before.state.KeepsMetadata after.state
  reply _ _ _ _ := True

theorem providence_borne {allowed : Task → Prop} : (providence image).Borne allowed where
  steady cell := .refl cell.state
  lasting early late := early.trans late
  changed _ change := by
    rcases change with same | change
    · exact .of_same (by rw [same])
    · exact change.keepsMetadata
  asked _ asked := asked.1.keepsMetadata
  drifted drifted := .of_same (by rw [drifted])

/-- A task is provident, if code that it is given to publish is provided. -/
theorem task_provident (registered : image.Registered) {task : Task} {heard : surroundings.Heard}
    {cell : Cell} (given : ∀ code, task = .call (.publish code) → Provided code cell.state) :
    (task.perform image cell).Obeys ((providence image).conduct task) (fun _ _ _ => True)
      heard cell := by
  have follows : ∀ task : Task,
      (task.perform image).Follows (taskConduct image task State.KeepsMetadata) := task_follows
  cases task with
  | call call =>
    refine obeys_answeredBy ?_ ?_ (fun _ _ keeps => keeps)
      (perform_provident registered fun code same => given code (congrArg Task.call same))
    · exact fun heard before after changed => changed.imp_right .call
    · rintro heard request before after ⟨asked, provided⟩
      exact ⟨.engine asked, fun code same => provided code (Question.engine.inj same)⟩
  | _ =>
    refine (follows _ heard cell).loosen (fun _ _ _ changed => changed) ?_ fun _ _ keeps => keeps
    intro heard question before after asked
    refine ⟨asked, ?_⟩
    rintro code rfl
    cases asked with
    | visitor shown => cases shown

/-- The methods that a heap holds are provided. -/
structure WellStocked (state : State) : Prop where
  orderly : state.Orderly
  provided : state.Every fun code => Provided code state

namespace WellStocked

theorem touches (stocked : WellStocked before) (touches : before.Touches after)
    (keeps : before.KeepsMetadata after) : WellStocked after where
  orderly := stocked.orderly.touches touches
  provided codeId code holds :=
    (stocked.provided codeId code (touches.inherits stocked.orderly holds)).later keeps

theorem ask {task : Task} {question : Question} (stocked : WellStocked before)
    (asked : Task.Ask image task question before after)
    (provided : ∀ code, question = .engine (.install code) → Provided code before) :
    WellStocked after := by
  rcases asked.touches with ⟨touches, -⟩ | ⟨code, rfl, installed⟩
  · exact stocked.touches touches asked.keepsMetadata
  · have every := stocked.provided.install (provided code rfl) installed
    exact ⟨stocked.orderly.install installed, fun codeId code holds =>
      (every codeId code holds).later asked.keepsMetadata⟩

theorem preserved : (providence image).Preserves (fun _ => True) fun _ cell =>
    WellStocked cell.state where
  changed _ stocked change := by
    rcases change with same | change
    · rwa [same]
    · exact stocked.touches change.touches change.keepsMetadata
  asked _ stocked asked := stocked.ask asked.1 asked.2
  called _ stocked := stocked
  answered _ stocked := stocked
  replied _ stocked _ := stocked
  drifted stocked drifted := by rwa [drifted]

/-- A heap begins with nothing but stubs. -/
theorem of_pristine (pristine : state.Pristine) : WellStocked state where
  orderly codeId slot found := (pristine codeId slot found).orderly
  provided codeId code holds method := by
    obtain ⟨slot, found, held⟩ := holds
    obtain ⟨-, isStub, -⟩ := (pristine codeId slot found).stub code held
    cases method.symm.trans isStub

end WellStocked

/-- If nobody publishes code that the heap does not hold, whatever methods it holds have all
their metadata, however calls are nested. -/
theorem Reaches.stocked {course : (service heap.image).Course} {library : Library}
    {journal : Journal} (registered : heap.image.Registered)
    (created : ((Heap.create library).run journal).1 = .ok heap)
    (reached : Reaches heap Native course) : WellStocked course.state.state := by
  obtain ⟨counters, journal, reached⟩ := reached
  have begins : (providence heap.image).Begins Native (fun _ => True) fun _ cell =>
      WellStocked cell.state := by
    intro course task stocked native
    refine ⟨trivial, fun heard => task_provident registered fun code same => ?_⟩
    exact stocked.provided _ code (native code same)
  exact (reached.sound providence_borne WellStocked.preserved.sustains begins
    (.of_pristine (created_pristine created))).holding

end Precompiled.Heap
