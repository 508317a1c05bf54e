import Precompiled.Proofs.Heap.Heeding
import Precompiled.Proofs.Heap.Integrity
import Precompiled.Proofs.Heap.Lifecycle

/-! How long a resolved slot holds its value. Between two questions a task changes no
table of references, except where it begins; an answer fills the slot that it was asked
for, if that is still null. So compiled code may rely on what it has read from a slot,
however calls are nested. -/
namespace Precompiled.Heap

open Relation (ReflTransGen)

variable {heap : Heap} {image : Image} {task : Task} {index : Nat}

/-- The tables of references of a heap. -/
structure Tables where
  metaspace : Got ClassRef
  metadata : Got MetadataRef
  objects : Got ObjectRef

def State.tables (state : State) : Tables :=
  ⟨state.metaspace, state.metadata, state.objects⟩

/-! ## What questions are asked for -/

/-- What the answer to a question does to the tables. A reference is resolved for a slot
that is null when the question is asked, and by the descriptor of that slot. -/
inductive Aims (image : Image) (task : Task) :
    (question : Question) → Tables → (question.Answer → Tables → Tables) → Prop where
  | findClass {tables : Tables} {index : Nat} {name : String} (loader : LoaderId)
    (named : StandsFor image index name) (null : tables.metaspace.slots[index]? = some none) :
    Aims image task (.engine (.findClass name loader)) tables fun answer now =>
      { now with metaspace := now.metaspace.receive index answer }
  | resolveMetadata {tables : Tables} {codeId localIndex index : Nat} {descriptor : String}
    (holder : ClassView) (named : metadataSlot image codeId localIndex = .ok (descriptor, index))
    (null : tables.metadata.slots[index]? = some none) :
    Aims image task (.engine (.resolveMetadata descriptor holder)) tables fun answer now =>
      { now with metadata := now.metadata.receive index answer }
  | resolveObject {tables : Tables} {index : Nat} {descriptor : String}
    (named : image.library.objectName index = .ok descriptor)
    (null : tables.objects.slots[index]? = some none) :
    Aims image task (.engine (.resolveObject descriptor)) tables fun answer now =>
      { now with objects := now.objects.receive index answer }
  | relocate {tables : Tables} {index : Nat} {object : ObjectRef} (collecting : task = .collect)
    (held : tables.objects.get index = some object) :
    Aims image task (.relocate object) tables fun answer now =>
      { now with objects := Got.replaceIf index object answer now.objects }
  | plain {question : Question} {tables : Tables} (plain : question.Plain) :
    Aims image task question tables fun _ now => now
  | install (code : LinkedCode) {tables : Tables} :
    Aims image task (.engine (.install code)) tables fun _ now => now
  | findRoutine (name : String) {tables : Tables} :
    Aims image task (.engine (.findRoutine name)) tables fun _ now => now

/-- Tables change by answers only. -/
def steadiness (image : Image) (task : Task) : Discipline surroundings Tables where
  effect := Aims image task
  rely _ _ := True

/-- All that an operation may do but rewrite tables. -/
def Licence.steady : Licence :=
  ⟨True, False, True⟩

theorem steadiness_suits : Suits image .steady (steadiness image task) State.tables fun _ => True where
  keeps := Discipline.keeps_true
  blind linkless := by rw [linkless]; rfl
  plain _ plain := .plain plain
  install _ _ _ _ := .install _
  routine _ _ _ _ := .findRoutine _
  gate _ _ _ _ := rfl
  rewrite permitted := permitted.elim
  metaspace loader _ named null := ⟨_, .findClass loader named null, fun _ _ => rfl⟩
  metadata holder _ named null := ⟨_, .resolveMetadata holder named null, fun _ _ => rfl⟩
  object _ named null := ⟨_, .resolveObject named null, fun _ _ => rfl⟩

/-! ## Where a task begins -/

/-- What a task does to the tables before it asks anything. -/
inductive Opening : Task → Tables → Tables → Prop where
  | same {task : Task} {tables : Tables} : Opening task tables tables
  | claim {task : Task} {tables : Tables} {metaspace : Got ClassRef}
    (kept : ∀ index klass, tables.metaspace.get index = some klass →
      metaspace.get index = some klass) : Opening task tables { tables with metaspace }
  | unload {klass : ClassRef} {tables : Tables} {metaspace : Got ClassRef}
    (gone : ∀ index, metaspace.get index ≠ some klass)
    (kept : ∀ index other, other ≠ klass → tables.metaspace.get index = some other →
      metaspace.get index = some other) :
    Opening (.call (.unload klass)) tables { tables with metaspace }
  | move {moves : List (ObjectRef × Option ObjectRef)} {tables : Tables} {objects : Got ObjectRef} :
    Opening (.call (.updateObjects moves)) tables { tables with objects }

/-- The later state holds the same references, and perhaps more classes. -/
structure State.Adds (before after : State) : Prop where
  metaspace : ∀ index klass, before.metaspace.get index = some klass →
    after.metaspace.get index = some klass
  metadata : after.metadata = before.metadata
  objects : after.objects = before.objects

theorem State.Adds.refl (state : State) : state.Adds state :=
  ⟨fun _ _ held => held, rfl, rfl⟩

theorem State.Adds.trans {first second third : State} (early : first.Adds second)
    (late : second.Adds third) : first.Adds third where
  metaspace index klass held := late.metaspace index klass (early.metaspace index klass held)
  metadata := late.metadata.trans early.metadata
  objects := late.objects.trans early.objects

theorem claimPlace_adds (entry : ClassEntry) (view : ClassView) (state : State) :
    state.Adds (claimPlace entry view state).2 where
  metaspace index klass held := by
    obtain ⟨metaspace, -, -⟩ := bindLoader_frame entry.classId view.loader state
    unfold claimPlace
    split
    · exact held
    split
    · exact held
    dsimp only
    split
    · rwa [metaspace]
    · exact Got.setIfNull_get (by rwa [metaspace])
  metadata := by rw [claimPlace_reseated]
  objects := by rw [claimPlace_reseated]

/-- While nothing is answered, matching a class only adds classes. -/
theorem Change.adds {view : ClassView} {before after : State}
    (change : Change image (.resolveClass view) unheard before after) : before.Adds after := by
  cases change with
  | link linked =>
    cases linked with
    | fill filled => cases filled <;> contradiction
    | stray => exact ⟨fun _ _ held => held, rfl, rfl⟩
  | revoke revoked => cases revoked <;> exact ⟨fun _ _ held => held, rfl, rfl⟩
  | refuse => exact claimPlace_adds _ _ _
  | bind =>
    rename_i entry view _ _ _ _
    have added := claimPlace_adds entry view before
    exact ⟨added.metaspace, added.metadata, added.objects⟩
  | unbind gone => exact gone.elim nofun nofun
  | drop gone => cases gone
  | relocate collected => cases collected
  | count given => cases given
  | _ => exact ⟨fun _ _ held => held, rfl, rfl⟩

/-- Matching a class asks nothing, and all it does to the tables is to add classes. -/
theorem resolveClass_claims (image : Image) (view : ClassView) (cell : Cell) (task : Task) :
    ∃ outcome after, resolveClass image view cell = .done outcome after ∧
      Opening task cell.state.tables after.state.tables := by
  obtain ⟨outcome, after, ran⟩ := resolveClass_silent image view cell
  have obeys : (resolveClass image view cell).Obeys
      (callConduct image (.resolveClass view) fun _ _ => True) _ unheard cell :=
    resolveClass_obeys (.resolveClass view) unheard cell
  rw [ran] at obeys
  obtain ⟨changes, -⟩ := obeys
  have added : cell.state.Adds after.state := by
    clear ran
    induction changes with
    | refl => exact .refl _
    | tail _ change ih =>
      rcases change with same | change
      · rwa [same]
      · exact ih.trans change.adds
  refine ⟨outcome, after, ran, ?_⟩
  have opened : Opening task cell.state.tables
      { cell.state.tables with metaspace := after.state.metaspace } := .claim added.metaspace
  simpa only [State.tables, added.metadata, added.objects] using opened

/-! ## Tasks -/

/-- A dialogue that opens a task and then changes tables only by answers. -/
def Steady (image : Image) (task : Task) {α : Type} (cell : Cell)
    (dialogue : Dialogue surroundings Cell α) : Prop :=
  ∃ seen, Opening task cell.state.tables seen ∧
    dialogue.Heeds (steadiness image task) (ofState State.tables) seen

theorem made_steady {α : Type} {operation : Operation α} (made : Made image .steady operation)
    (cell : Cell) :
    (operation cell).Heeds (engineDiscipline (steadiness image task)) (ofState State.tables)
      cell.state.tables :=
  steadiness_suits.made made cell trivial

theorem resolveClass_steady (view : ClassView) (cell : Cell) :
    Steady image (.call (.resolveClass view)) cell
      (Operation.lift (resolveClass image view) cell) := by
  obtain ⟨outcome, after, ran, opening⟩ := resolveClass_claims image view cell (.call (.resolveClass view))
  simp only [Operation.lift, Action.answeredBy, ran]
  exact ⟨_, opening, rfl⟩

/-- A load matches the class first and goes on steadily from there. -/
theorem loadClass_steady (view : ClassView) (cell : Cell) :
    Steady image (.call (.loadClass view)) cell (Operation.lift (loadClass image view) cell) := by
  simp only [Operation.lift, Action.answeredBy]
  cases disabled : cell.state.linkageDisabled with
  | true =>
    rw [loadClass_disabled disabled]
    exact ⟨_, .same, rfl⟩
  | false =>
    obtain ⟨outcome, after, ran, opening⟩ := resolveClass_claims image view cell (.call (.loadClass view))
    rw [loadClass_enabled disabled ran]
    exact ⟨_, opening, heeds_lift (made_steady (finishLoad_made trivial trivial outcome) after)⟩

/-- Unloading clears the slots of the class before it asks anything. -/
theorem unload_clears (image : Image) (klass : ClassRef) (cell : Cell) :
    ∃ metaspace : Got ClassRef, (∀ index, metaspace.get index ≠ some klass) ∧
      (∀ index other, other ≠ klass → cell.state.metaspace.get index = some other →
        metaspace.get index = some other) ∧
      (∀ index other, metaspace.get index = some other →
        cell.state.metaspace.get index = some other) ∧
      ((Task.call (.unload klass)).perform image cell).Heeds
        (steadiness image (.call (.unload klass))) (ofState State.tables)
        { cell.state.tables with metaspace } := by
  obtain ⟨after, ran, leaves⟩ := unload_leaves image klass cell
  refine ⟨after.state.metaspace, leaves.gone, leaves.others, leaves.fewer, ?_⟩
  have heeds : (finishUnload image (entryOf image cell.state klass) after).Heeds
      (engineDiscipline (steadiness image (.call (.unload klass)))) (ofState State.tables)
      after.state.tables := made_steady (finishUnload_made _) after
  have tables : after.state.tables =
      { cell.state.tables with metaspace := after.state.metaspace } := by
    rw [leaves.frame]
    rfl
  rw [tables] at heeds
  have ended : Operation.lift (unload image klass) cell =
      Operation.lift (finishUnload image (entryOf image cell.state klass)) after := by
    simp only [Operation.lift, Action.answeredBy, ran]
  show (Operation.lift (unload image klass) cell).Heeds _ _ _
  rw [ended]
  exact heeds_lift heeds

theorem unload_steady (klass : ClassRef) (cell : Cell) :
    Steady image (.call (.unload klass)) cell (Operation.lift (unload image klass) cell) := by
  obtain ⟨metaspace, gone, others, -, heeds⟩ := unload_clears image klass cell
  exact ⟨_, .unload gone others, heeds⟩

/-- The collector moves objects before it asks anything. -/
theorem updateObjects_steady (moves : List (ObjectRef × Option ObjectRef)) (cell : Cell) :
    Steady image (.call (.updateObjects moves)) cell
      (Operation.lift (perform image (.updateObjects moves)) cell) := by
  obtain ⟨visits, after, ran, only⟩ := moving_done moves cell
  simp only [Operation.lift, Action.answeredBy, perform, ran]
  exact ⟨_, .move, by rw [only]; rfl⟩

/-- Every task opens and then goes on steadily. -/
theorem task_steady (task : Task) (cell : Cell) :
    Steady image task cell (task.perform image cell) := by
  cases task with
  | call call =>
    cases call with
    | loadClass view => exact loadClass_steady view cell
    | resolveClass view => exact resolveClass_steady view cell
    | unload klass => exact unload_steady klass cell
    | updateObjects moves => exact updateObjects_steady moves cell
    | _ =>
      refine ⟨_, .same, steadiness_suits.call (perform_made ?_) cell trivial⟩
      exact ⟨fun _ => trivial, False.elim, fun _ => trivial⟩
  | collect =>
    refine ⟨_, .same, steadiness_suits.collect ?_ cell trivial⟩
    intro state index object _ held
    exact ⟨_, .relocate rfl held, fun _ _ => rfl⟩
  | methods => exact ⟨_, .same, steadiness_suits.walk (.inl rfl) cell trivial⟩
  | metadata => exact ⟨_, .same, steadiness_suits.walk (.inr (.inl rfl)) cell trivial⟩
  | entries => exact ⟨_, .same, steadiness_suits.walk (.inr (.inr rfl)) cell trivial⟩

/-! ## Courses -/

section Courses

variable {admits : (service image).Course → Task → Prop} {course later : (service image).Course}

/-- A question whose answer will do to the tables what it was asked for, and nothing
else. -/
def Awaits (image : Image) (seen : Tables) (waiting : (service image).Pending) : Prop :=
  ∃ effect, Aims image waiting.call waiting.request seen effect ∧ ∀ answer after,
    (waiting.resume answer after).Heeds (steadiness image waiting.call) (ofState State.tables)
      (effect answer after.state.tables)

/-- Every open question waits for what it was asked for. -/
structure Attentive (course : (service image).Course) : Prop where
  pending : ∀ waiting ∈ course.pending, ∃ seen, Awaits image seen waiting
  latest : ∀ task question cell older, course.past = ⟨.asked task question, cell⟩ :: older →
    ∃ resume rest, course.pending = ⟨task, question, resume⟩ :: rest ∧
      Awaits image cell.state.tables ⟨task, question, resume⟩

theorem Attentive.start (cell : Cell) : Attentive ({ state := cell } : (service image).Course) where
  pending _ among := (List.not_mem_nil among).elim
  latest _ _ _ _ past := by cases past

/-- A steady task comes to its next halt. -/
theorem Attentive.halt (course : (service image).Course) {seen : Tables} {dialogue : Dialogue surroundings Cell task.Reply}
    (pending : ∀ waiting ∈ course.pending, ∃ seen, Awaits image seen waiting)
    (heeds : dialogue.Heeds (steadiness image task) (ofState State.tables) seen) :
    Attentive (course.halt task dialogue) ∧
      (course.halt task dialogue).state.state.tables = seen := by
  cases dialogue with
  | done reply cell =>
    refine ⟨⟨pending, ?_⟩, heeds⟩
    rintro _ _ _ _ ⟨⟩
  | ask question cell resume =>
    obtain ⟨rfl, effect, aims, resumed⟩ := heeds
    have own : Awaits image cell.state.tables ⟨task, question, resume⟩ :=
      ⟨effect, aims, fun answer after => resumed answer after trivial⟩
    refine ⟨⟨?_, ?_⟩, rfl⟩
    · intro waiting among
      cases among with
      | head => exact ⟨_, own⟩
      | tail _ among => exact pending waiting among
    · rintro _ _ _ _ ⟨⟩
      exact ⟨resume, _, rfl, own⟩

/-- What one step does to the tables: nothing, or what the task at work may do where it
begins, or what the answer does that it was given. -/
inductive Shift (image : Image) (before after : (service image).Course) : Prop where
  | still (same : after.state.state.tables = before.state.state.tables)
  | begun {moment : (service image).Moment} {older : Past image}
    (past : after.past = moment :: older) (begin : after = before.begin moment.event.call)
    (opening : Opening moment.event.call before.state.state.tables after.state.state.tables)
  | answered {moment : (service image).Moment} {older : Past image}
    (past : after.past = moment :: older) {question : Question} {seen : Tables}
    {effect : question.Answer → Tables → Tables} {answer : question.Answer}
    (aims : Aims image moment.event.call question seen effect)
    (shifted : after.state.state.tables = effect answer before.state.state.tables)

/-- Every step leaves the open questions attentive. -/
theorem Attentive.step (attentive : Attentive course) (step : Service.Step admits course later) :
    Attentive later ∧ Shift image course later ∧ ∃ moments, later.past = moments ++ course.past := by
  cases step with
  | call task =>
    have steady : Steady image task course.state (task.perform image course.state) :=
      task_steady task course.state
    obtain ⟨seen, opening, heeds⟩ := steady
    obtain ⟨onward, same⟩ :=
      Attentive.halt (course.note (.called task)) attentive.pending heeds
    obtain ⟨event, rfl, past⟩ := course.begin_past task
    exact ⟨onward, .begun past rfl (same.symm ▸ opening), _, past⟩
  | @answer front back waiting answer among =>
    obtain ⟨seen, effect, aims, resumed⟩ := attentive.pending waiting (by simp [among])
    have others : ∀ other ∈ front ++ back, ∃ seen, Awaits image seen other :=
      fun other member => attentive.pending other (Service.mem_rest among member)
    obtain ⟨onward, shifted⟩ := Attentive.halt
      (Service.Course.note { course with pending := front ++ back }
        (.answered waiting.call waiting.request answer)) others (resumed answer course.state)
    obtain ⟨event, own, past⟩ :=
      Service.Course.resume_past { course with pending := front ++ back } waiting answer
    exact ⟨onward, .answered past (own ▸ aims) shifted, _, past⟩
  | drift state drifted =>
    have same : state.state = course.state.state := drifted
    exact ⟨⟨attentive.pending, attentive.latest⟩, .still (by rw [same]), [], rfl⟩

theorem Reaches.attentive {admits : (service heap.image).Course → Task → Prop}
    {course : (service heap.image).Course} (reached : Reaches heap admits course) :
    Attentive course := by
  obtain ⟨counters, journal, reached⟩ := reached
  induction reached with
  | refl => exact .start _
  | tail _ step ih => exact (ih.step step).1

end Courses

/-! ## What becomes of a value -/

/-- A value that a slot holds is not replaced by an answer for any slot. -/
theorem Got.receive_get {α : Type} {table : Got α} {other : Nat} {seen : α} (index : Nat)
    (answer : Option α) (held : table.get other = some seen) :
    (table.receive index answer).get other = some seen := by
  cases answer with
  | none => exact held
  | some value => exact Got.setIfNull_get held

/-- A task in which the collector has its way. -/
def Task.Collects (task : Task) : Prop :=
  task = .collect ∨ ∃ moves, task = .call (.updateObjects moves)

section Openings

variable {before after : Tables} {klass : ClassRef}

theorem Opening.metadata (opening : Opening task before after) : after.metadata = before.metadata := by
  cases opening <;> rfl

theorem Opening.metaspace (opening : Opening task before after)
    (held : before.metaspace.get index = some klass) :
    after.metaspace.get index = some klass ∨ task = .call (.unload klass) := by
  cases opening with
  | same => exact .inl held
  | claim kept => exact .inl (kept index klass held)
  | @unload gone _ _ cleared kept =>
    by_cases same : klass = gone
    · exact .inr (by rw [same])
    · exact .inl (kept index klass same held)
  | move => exact .inl held

theorem Opening.objects (opening : Opening task before after) :
    after.objects = before.objects ∨ task.Collects := by
  cases opening with
  | move => exact .inr (.inr ⟨_, rfl⟩)
  | _ => exact .inl rfl

end Openings

section Values

variable {before after : (service image).Course} {klass : ClassRef} {value : MetadataRef}
  {object : ObjectRef}

/-- Metadata is there to stay. -/
theorem Shift.metadata (shift : Shift image before after)
    (held : before.state.state.metadata.get index = some value) :
    after.state.state.metadata.get index = some value := by
  have seen : before.state.state.tables.metadata.get index = some value := held
  show after.state.state.tables.metadata.get index = some value
  cases shift with
  | still same => rwa [same]
  | begun past begin opening => rwa [opening.metadata]
  | answered past aims shifted =>
    rw [shifted]
    cases aims with
    | resolveMetadata holder named null => exact Got.receive_get _ _ seen
    | _ => exact seen

/-- A class leaves its slot when its unloading begins, and not otherwise. -/
theorem Shift.metaspace (shift : Shift image before after)
    (held : before.state.state.metaspace.get index = some klass) :
    after.state.state.metaspace.get index = some klass ∨
      after = before.begin (.call (.unload klass)) := by
  have seen : before.state.state.tables.metaspace.get index = some klass := held
  show after.state.state.tables.metaspace.get index = some klass ∨ _
  cases shift with
  | still same => exact .inl (by rwa [same])
  | begun past begin opening =>
    refine (opening.metaspace seen).imp_right fun own => ?_
    rwa [own] at begin
  | answered past aims shifted =>
    rw [shifted]
    refine .inl ?_
    cases aims with
    | findClass loader named null => exact Got.receive_get _ _ seen
    | _ => exact seen

/-- Objects change only while the collector has its way. -/
theorem Shift.objects (shift : Shift image before after)
    (held : before.state.state.objects.get index = some object) :
    after.state.state.objects.get index = some object ∨
      ∃ moment older, after.past = moment :: older ∧ Task.Collects moment.event.call := by
  have seen : before.state.state.tables.objects.get index = some object := held
  show after.state.state.tables.objects.get index = some object ∨ _
  cases shift with
  | still same => exact .inl (by rwa [same])
  | begun past begin opening =>
    rcases opening.objects with same | collects
    · exact .inl (by rwa [same])
    · exact .inr ⟨_, _, past, collects⟩
  | answered past aims shifted =>
    rw [shifted]
    cases aims with
    | resolveObject named null => exact .inl (Got.receive_get _ _ seen)
    | relocate collecting held => exact .inr ⟨_, _, past, .inl collecting⟩
    | _ => exact .inl seen

end Values

/-! ## Whole runs -/

/-- The engine is asked to resolve a slot. The slot is null when it is asked, and it is
the slot that the answer is for. -/
inductive Resolving (image : Image) (state : State) {α : Type} :
    (question : Question) → (question.Answer → Cell → Dialogue surroundings Cell α) → Prop where
  | findClass {index : Nat} {name : String} {loader : LoaderId}
    {resume : Option ClassRef → Cell → Dialogue surroundings Cell α}
    (named : StandsFor image index name) (null : state.metaspace.slots[index]? = some none)
    (received : ∀ answer after, (resume answer after).present.state.metaspace =
      after.state.metaspace.receive index answer) :
    Resolving image state (.engine (.findClass name loader)) resume
  | resolveMetadata {codeId localIndex index : Nat} {descriptor : String} {holder : ClassView}
    {resume : Option MetadataRef → Cell → Dialogue surroundings Cell α}
    (named : metadataSlot image codeId localIndex = .ok (descriptor, index))
    (null : state.metadata.slots[index]? = some none)
    (received : ∀ answer after, (resume answer after).present.state.metadata =
      after.state.metadata.receive index answer) :
    Resolving image state (.engine (.resolveMetadata descriptor holder)) resume
  | resolveObject {index : Nat} {descriptor : String}
    {resume : Option ObjectRef → Cell → Dialogue surroundings Cell α}
    (named : image.library.objectName index = .ok descriptor)
    (null : state.objects.slots[index]? = some none)
    (received : ∀ answer after, (resume answer after).present.state.objects =
      after.state.objects.receive index answer) :
    Resolving image state (.engine (.resolveObject descriptor)) resume

/-- Questions that ask the engine to resolve a slot. -/
def Question.Resolves : Question → Prop
  | .engine (.findClass _ _) | .engine (.resolveMetadata _ _) | .engine (.resolveObject _) => True
  | _ => False

/-- What can be relied on, from a moment of a course on, about slots that are resolved by
then. -/
structure StableSlots (course : (service image).Course) : Prop where
  /-- Metadata never changes again. -/
  metadata : ∀ later, ReflTransGen (Service.Step fun _ _ => True) course later →
    ∀ index value, course.state.state.metadata.get index = some value →
      later.state.state.metadata.get index = some value
  /-- In one step a class stays in its slot, or the step is the one in which the class
  begins to be unloaded. -/
  metaspace : ∀ later, Service.Step (fun _ _ => True) course later →
    ∀ index klass, course.state.state.metaspace.get index = some klass →
      later.state.state.metaspace.get index = some klass ∨
        later = course.begin (.call (.unload klass))
  /-- That step makes the slot null. -/
  unloaded : ∀ index klass, course.state.state.metaspace.get index = some klass →
    (course.begin (.call (.unload klass))).state.state.metaspace.get index = none
  /-- However much later, a class has left its slot only if it was unloaded since. -/
  lasting : ∀ later, ReflTransGen (Service.Step fun _ _ => True) course later →
    ∃ since, later.past = since ++ course.past ∧
      ∀ index klass, course.state.state.metaspace.get index = some klass →
        later.state.state.metaspace.get index = some klass ∨
          ∃ moment ∈ since, moment.event = .called (.call (.unload klass))
  /-- An object changes only in a step in which the collector has its way. -/
  objects : ∀ later, Service.Step (fun _ _ => True) course later →
    ∀ index object, course.state.state.objects.get index = some object →
      later.state.state.objects.get index = some object ∨
        ∃ moment older, later.past = moment :: older ∧ Task.Collects moment.event.call
  /-- The engine is asked to resolve a slot only while the slot is null. -/
  asked : ∀ task question cell older, question.Resolves →
    course.past = ⟨.asked task question, cell⟩ :: older →
    ∃ resume rest, course.pending = ⟨task, question, resume⟩ :: rest ∧
      Resolving image cell.state question resume

section Runs

variable {course : (service image).Course}

/-- A question that waits for a slot to be resolved is asked for that slot. -/
theorem Awaits.resolving {cell : Cell} {question : Question}
    {resume : question.Answer → Cell → Dialogue surroundings Cell task.Reply}
    (awaits : Awaits image cell.state.tables ⟨task, question, resume⟩)
    (resolves : question.Resolves) : Resolving image cell.state question resume := by
  obtain ⟨effect, aims, resumed⟩ := awaits
  have ended (answer : question.Answer) (after : Cell) :=
    (resumed answer after).present
  cases aims with
  | findClass loader named null =>
    exact .findClass named null fun answer after => congrArg Tables.metaspace (ended answer after)
  | resolveMetadata holder named null =>
    exact .resolveMetadata named null fun answer after => congrArg Tables.metadata (ended answer after)
  | resolveObject named null =>
    exact .resolveObject named null fun answer after => congrArg Tables.objects (ended answer after)
  | relocate => exact resolves.elim
  | plain plain => cases plain <;> exact resolves.elim
  | install => exact resolves.elim
  | findRoutine => exact resolves.elim

/-- Unloading makes the slots of the class null. -/
theorem begin_unload (attentive : Attentive course) {klass : ClassRef}
    (held : course.state.state.metaspace.get index = some klass) :
    (course.begin (.call (.unload klass))).state.state.metaspace.get index = none := by
  obtain ⟨metaspace, gone, -, fewer, heeds⟩ := unload_clears image klass course.state
  obtain ⟨-, same⟩ :=
    Attentive.halt (course.note (.called (.call (.unload klass)))) attentive.pending heeds
  have tables : (course.begin (.call (.unload klass))).state.state.metaspace = metaspace :=
    congrArg Tables.metaspace same
  rw [tables]
  by_contra filled
  obtain ⟨other, there⟩ := Option.ne_none_iff_exists'.mp filled
  obtain rfl : klass = other := Option.some.inj (held.symm.trans (fewer index other there))
  exact gone index there

/-- What many steps do to metadata and classes. -/
theorem Attentive.steps {admits : (service image).Course → Task → Prop}
    (attentive : Attentive course) {later : (service image).Course}
    (onward : ReflTransGen (Service.Step admits) course later) :
    Attentive later ∧
      (∀ index value, course.state.state.metadata.get index = some value →
        later.state.state.metadata.get index = some value) ∧
      ∃ since, later.past = since ++ course.past ∧
        ∀ index klass, course.state.state.metaspace.get index = some klass →
          later.state.state.metaspace.get index = some klass ∨
            ∃ moment ∈ since, moment.event = .called (.call (.unload klass)) := by
  induction onward with
  | refl => exact ⟨attentive, fun _ _ held => held, [], rfl, fun _ _ held => .inl held⟩
  | @tail middle last _ step ih =>
    obtain ⟨ready, metadata, since, past, classes⟩ := ih
    obtain ⟨next, shift, moments, more⟩ := ready.step step
    refine ⟨next, fun index value held => shift.metadata (metadata index value held),
      moments ++ since, by rw [more, past, List.append_assoc], fun index klass held => ?_⟩
    rcases classes index klass held with there | ⟨moment, among, said⟩
    · rcases shift.metaspace there with stays | begun
      · exact .inl stays
      · -- The step in which the class left its slot is in the past from then on.
        obtain ⟨event, -, halted⟩ := middle.begin_past (.call (.unload klass))
        rw [begun, halted] at more
        have called : ⟨.called (.call (.unload klass)), middle.state⟩ ∈ moments := by
          rw [← List.append_cancel_right more]
          exact List.mem_cons_of_mem _ List.mem_cons_self
        exact .inr ⟨_, List.mem_append_left _ called, rfl⟩
    · exact .inr ⟨moment, List.mem_append_right _ among, said⟩

/-- References that compiled code has read stay what they were. For every heap and every
course of its tasks, however they are nested and whatever the engine answers. -/
theorem slots_stable {heap : Heap} {admits : (service heap.image).Course → Task → Prop}
    {course : (service heap.image).Course} (reached : Reaches heap admits course) :
    StableSlots course := by
  have attentive := reached.attentive
  exact
    { metadata := fun later onward => (attentive.steps onward).2.1
      metaspace := fun later step index klass held => (attentive.step step).2.1.metaspace held
      unloaded := fun index klass held => begin_unload attentive held
      lasting := fun later onward => (attentive.steps onward).2.2
      objects := fun later step index object held => (attentive.step step).2.1.objects held
      asked := by
        intro task question cell older resolves past
        obtain ⟨resume, rest, pending, awaits⟩ := attentive.latest task question cell older past
        exact ⟨resume, rest, pending, awaits.resolving resolves⟩ }

/-- A library without code that refers to one class. -/
def referring : Library :=
  { bare with
    header := { (default : Blob.Header) with metaspaceSize := 1 }
    contents := { bare.contents with metaspaceNames := [0, 0, 0, 0] }
    names := [1, 0, 67] }

/-- Its heap. -/
def referringHeap : Heap :=
  { image := ⟨referring, []⟩, state := Image.initialState ⟨referring, []⟩ }

/-- An engine that has one class and knows it by every name. -/
def knowing : (question : Question) → question.Answer
  | .engine (.findClass _ _) => some sampleView.klass
  | other => blank other

theorem slots_stable_referring : ((Heap.create referring).run []).1 = .ok referringHeap ∧
    ∃ course : (service referringHeap.image).Course,
      Reaches referringHeap (fun _ _ => True) course ∧
      course.state.state.metaspace.get 0 = some sampleView.klass ∧ StableSlots course := by
  let start : (service referringHeap.image).Course := { state := { state := referringHeap.state } }
  obtain ⟨course, onward, -, state⟩ : ∃ course,
      ReflTransGen (Service.Step fun _ _ => True) start course ∧ course.pending = [] ∧
      course.state = Service.carryOut knowing (service referringHeap.image)
        [.call (.resolveMetaspace 0 0)] start.state :=
    start.carries_out knowing _ rfl fun _ _ _ _ => trivial
  have reached : Reaches referringHeap (fun _ _ => True) course := ⟨{}, [], onward⟩
  refine ⟨rfl, course, reached, ?_, slots_stable reached⟩
  rw [state]
  rfl

end Runs

end Precompiled.Heap
