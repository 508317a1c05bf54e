import Precompiled.Proofs.Heap.Address
import Precompiled.Proofs.Heap.Chronicle

/-! The life of a code slot over a whole course of its heap: what publishing
replies, who is shown the code, and what becomes of it. -/
namespace Precompiled.Heap

variable {heap : Heap} {image : Image} {before after state : State} {codeId : Nat} {slot : Slot}
  {code : LinkedCode}

/-! ## Replies of publishing -/

/-- How a call to publish code goes on from a state. -/
inductive Publishing (image : Image) (code : LinkedCode) (cell : Cell) :
    Dialogue surroundings Cell Slot.Publication → Prop where
  | unknown (journal : Journal) (absent : cell.state.slots[code.codeId]? = none) :
    Publishing image code cell (.done .invalidated { cell with journal })
  | refused {slot : Slot} (found : cell.state.slots[code.codeId]? = some slot)
    (other : ∀ winner, (slot.publish code).1 ≠ .published winner) :
    Publishing image code cell (.done (slot.publish code).1
      { cell with
        state := { cell.state with slots := cell.state.slots.set code.codeId (slot.publish code).2 } })
  | made {later : Cell} (installed : Install image code cell.state later.state) :
    Publishing image code cell
      (.ask (.engine (.install code)) later fun _ last => .done (.published code) last)

theorem perform_publish (image : Image) (code : LinkedCode) (cell : Cell) :
    Publishing image code cell (Task.perform image (.call (.publish code)) cell) := by
  simp only [Task.perform, Heap.perform, Operation.lift, Action.answeredBy, publish,
    Operation.changeSlot, Operation.change, Action.bind_apply, Action.step_apply,
    Dialogue.bind_done]
  cases found : cell.state.slots[code.codeId]? with
  | none => exact .unknown _ found
  | some slot =>
    obtain ⟨phase, handle, admitted⟩ := slot
    cases phase with
    | invalidated => exact .refused found fun winner same => by cases same
    | resolved =>
      cases handle with
      | none => exact .refused found fun winner same => by cases same
      | some other => exact .refused found fun winner same => by cases same
    | unresolved =>
      cases handle with
      | none => exact .made (.slot found rfl rfl)
      | some other => exact .refused found fun winner same => by cases same

/-- What a reply to publishing code says about a state. -/
def Truthful (state : State) (code : LinkedCode) : Slot.Publication → Prop
  | .published winner => winner = code ∧ state.Holds code.codeId code
  | .alreadyPublished winner => state.Holds code.codeId winner
  | .invalidated =>
    ∀ slot : Slot, state.slots[code.codeId]? = some slot → slot.phase = .invalidated
  | .waiting => False

/-- A slot that was once invalidated stays so. -/
theorem State.Grows.invalidated (grows : before.Grows after)
    (was : ∀ slot : Slot, before.slots[codeId]? = some slot → slot.phase = .invalidated)
    (there : after.slots[codeId]? = some slot) : slot.phase = .invalidated := by
  obtain ⟨old, found, grown⟩ := grows.origin there
  exact (was old found ▸ grown.phase).final

/-- A true reply stays true. -/
theorem Truthful.later {reply : Slot.Publication} (truthful : Truthful before code reply)
    (grows : before.Grows after) : Truthful after code reply := by
  cases reply with
  | published winner => exact ⟨truthful.1, grows.holds truthful.2⟩
  | alreadyPublished winner => exact grows.holds truthful
  | invalidated => exact fun slot there => grows.invalidated truthful there
  | waiting => exact truthful

/-- In an orderly state a refusal to publish is true. -/
theorem refusal_truthful (orderly : state.Orderly) (found : state.slots[code.codeId]? = some slot)
    (other : ∀ winner, (slot.publish code).1 ≠ .published winner) :
    Truthful { state with slots := state.slots.set code.codeId (slot.publish code).2 } code
      (slot.publish code).1 := by
  obtain ⟨resolved, handle, -⟩ := orderly _ _ found
  obtain ⟨bound, -⟩ := List.getElem?_eq_some_iff.mp found
  obtain ⟨phase, held, admitted⟩ := slot
  cases phase with
  | invalidated =>
    intro later there
    rcases set_slot there with ⟨-, rfl⟩ | ⟨elsewhere, -⟩
    · rfl
    · exact absurd rfl elsewhere
  | resolved =>
    cases held with
    | none =>
      obtain ⟨code, impossible⟩ := resolved rfl
      cases impossible
    | some winner => exact ⟨_, List.getElem?_set_self bound, rfl⟩
  | unresolved =>
    cases held with
    | none => exact absurd rfl (other code)
    | some winner => exact absurd rfl (handle winner rfl).1

/-! ## The ledger of publishing -/

/-- A call to publish code of a code id replies that it did. -/
def publishes (image : Image) (codeId : Nat) : (service image).Event → Bool
  | .replied (.call (.publish code)) (.published _) => code.codeId == codeId
  | _ => false

/-- A call that only links classes installs code of a code id. -/
def links (image : Image) (codeId : Nat) : (service image).Event → Bool
  | .asked (.call (.publish _)) _ => false
  | event => installs image codeId event

/-- A task is a call to publish code of a code id. -/
def publishing (codeId : Nat) : Task → Bool
  | .call (.publish code) => code.codeId == codeId
  | _ => false

theorem publishes_plain {event : (service image).Event}
    (plain : ∀ code reply, event ≠ .replied (.call (.publish code)) reply) :
    publishes image codeId event = false := by
  unfold publishes
  split
  · exact absurd rfl (plain _ _)
  · rfl

theorem links_installs {event : (service image).Event} (linked : links image codeId event = true) :
    installs image codeId event = true := by
  unfold links at linked
  split at linked
  · cases linked
  · exact linked

theorem publishing_other {task : Task} (other : ∀ code, task ≠ .call (.publish code)) :
    publishing codeId task = false := by
  unfold publishing
  split
  · exact absurd rfl (other _)
  · rfl

def publishCount (past : Past image) (codeId : Nat) : Nat :=
  past.countP fun moment => publishes image codeId moment.event

theorem publishCount_cons (moment : (service image).Moment) (past : Past image) (codeId : Nat) :
    publishCount (moment :: past) codeId =
      publishCount past codeId + if publishes image codeId moment.event then 1 else 0 :=
  List.countP_cons

def linkCount (past : Past image) (codeId : Nat) : Nat :=
  past.countP fun moment => links image codeId moment.event

theorem linkCount_cons (moment : (service image).Moment) (past : Past image) (codeId : Nat) :
    linkCount (moment :: past) codeId =
      linkCount past codeId + if links image codeId moment.event then 1 else 0 :=
  List.countP_cons

def awaitCount (pending : List (service image).Pending) (codeId : Nat) : Nat :=
  pending.countP fun waiting => publishing codeId waiting.call

theorem awaitCount_cons (waiting : (service image).Pending)
    (pending : List (service image).Pending) (codeId : Nat) :
    awaitCount (waiting :: pending) codeId =
      awaitCount pending codeId + if publishing codeId waiting.call then 1 else 0 :=
  List.countP_cons

theorem awaitCount_append (front back : List (service image).Pending) (codeId : Nat) :
    awaitCount (front ++ back) codeId = awaitCount front codeId + awaitCount back codeId :=
  List.countP_append

/-- A call to publish code that waits for the engine to install it. -/
def awaits (image : Image) (code : LinkedCode) : (service image).Pending where
  call := .call (.publish code)
  request := .engine (.install code)
  resume _ after := .done (.published code) after

/-- Every reply of a call to publish is true. Each call that published code, or
is about to say so, has its own notice to the engine, and so has code that was
linked. -/
structure Ledger (course : (service image).Course) : Prop where
  awaiting : ∀ waiting ∈ course.pending, ∀ code, waiting.call = .call (.publish code) →
    waiting = awaits image code ∧ course.state.state.Holds code.codeId code
  counted : ∀ codeId, publishCount course.past codeId + linkCount course.past codeId +
    awaitCount course.pending codeId ≤ installCount course.past codeId
  truthful : ∀ moment ∈ course.past, ∀ code reply,
    moment.event = .replied (.call (.publish code)) reply →
    Truthful moment.state.state code reply ∧ Truthful course.state.state code reply

namespace Ledger

variable {course : (service image).Course}

theorem start (cell : Cell) : Ledger ({ state := cell } : (service image).Course) where
  awaiting := by simp
  counted := by simp [publishCount, linkCount, awaitCount]
  truthful := by simp

/-- The ledger stays right while the heap grows. -/
theorem grow (ledger : Ledger course) {cell : Cell} (grows : course.state.state.Grows cell.state) :
    Ledger { course with state := cell } where
  awaiting waiting among code same :=
    ⟨(ledger.awaiting waiting among code same).1,
      grows.holds (ledger.awaiting waiting among code same).2⟩
  counted := ledger.counted
  truthful moment among code reply said := by
    obtain ⟨before, now⟩ := ledger.truthful moment among code reply said
    exact ⟨before, now.later grows⟩

/-- Any event but a reply to publishing may be noted. -/
theorem note (ledger : Ledger course) {event : (service image).Event}
    (plain : ∀ code reply, event ≠ .replied (.call (.publish code)) reply) :
    Ledger (course.note event) where
  awaiting := ledger.awaiting
  counted codeId := by
    have counted := ledger.counted codeId
    simp only [Service.Course.note, publishCount_cons, linkCount_cons, installCount_cons,
      publishes_plain plain, Bool.false_eq_true, if_false]
    cases linked : links image codeId event with
    | true =>
      simp only [links_installs linked, if_true]
      omega
    | false =>
      simp only [Bool.false_eq_true, if_false]
      omega
  truthful moment among code reply said := by
    cases among with
    | head => exact absurd said (plain code reply)
    | tail _ among => exact ledger.truthful moment among code reply said

/-- A question of another task may be left open. -/
theorem wait (ledger : Ledger course) {waiting : (service image).Pending}
    (other : ∀ code, waiting.call ≠ .call (.publish code)) :
    Ledger { course with pending := waiting :: course.pending } where
  awaiting open_ among code same := by
    cases among with
    | head => exact absurd same (other code)
    | tail _ among => exact ledger.awaiting open_ among code same
  counted codeId := by
    simpa [awaitCount_cons, publishing_other other] using ledger.counted codeId
  truthful := ledger.truthful

/-- A question may be closed. -/
theorem resume (ledger : Ledger course) {front back : List (service image).Pending}
    {waiting : (service image).Pending} (among : course.pending = front ++ waiting :: back) :
    Ledger { course with pending := front ++ back } where
  awaiting other member := ledger.awaiting other (Service.mem_rest among member)
  counted codeId := by
    have counted := ledger.counted codeId
    rw [among, awaitCount_append, awaitCount_cons] at counted
    simp only [awaitCount_append]
    omega
  truthful := ledger.truthful

/-- Another task came to a halt. -/
theorem halt (ledger : Ledger course) {task : Task} (other : ∀ code, task ≠ .call (.publish code))
    {dialogue : Dialogue surroundings Cell task.Reply}
    (grows : course.state.state.Grows (course.halt task dialogue).state.state) :
    Ledger (course.halt task dialogue) := by
  cases dialogue with
  | done reply after =>
    refine (ledger.grow grows).note ?_
    rintro code reply ⟨⟩
    exact other code rfl
  | ask question after resume =>
    exact Ledger.note (Ledger.wait (ledger.grow grows) other) nofun

/-- A call to publish code was refused. -/
theorem refuse (ledger : Ledger course) {reply : Slot.Publication}
    (truthful : Truthful course.state.state code reply)
    (refused : ∀ winner, reply ≠ .published winner) :
    Ledger (course.note (.replied (.call (.publish code)) reply)) where
  awaiting := ledger.awaiting
  counted codeId := by
    have silent : publishes image codeId (.replied (.call (.publish code)) reply) = false := by
      cases reply with
      | published winner => exact absurd rfl (refused winner)
      | _ => rfl
    simpa [Service.Course.note, publishCount_cons, linkCount_cons, installCount_cons, silent, links,
      installs] using ledger.counted codeId
  truthful moment among other reply said := by
    cases among with
    | head =>
      cases said
      exact ⟨truthful, truthful⟩
    | tail _ among => exact ledger.truthful moment among other reply said

/-- A call to publish code came to its first halt. -/
theorem publish (ledger : Ledger course) (orderly : course.state.state.Orderly)
    {dialogue : Dialogue surroundings Cell Slot.Publication}
    (goes : Publishing image code course.state dialogue) :
    Ledger (course.halt (.call (.publish code)) dialogue) := by
  cases goes with
  | unknown journal absent =>
    have unknown : Truthful course.state.state code .invalidated :=
      fun slot there => absurd (absent.symm.trans there) nofun
    have grown : Ledger { course with state := { course.state with journal } } :=
      ledger.grow (.refl _)
    exact grown.refuse unknown nofun
  | refused found other =>
    have grows := State.Grows.set found (Slot.grows_publish code)
    exact Ledger.refuse (ledger.grow grows) (refusal_truthful orderly found other) other
  | @made later installed =>
    obtain ⟨-, slot, there, -, held⟩ := installed.taken
    have grown := ledger.grow installed.grows
    exact
      { awaiting := by
          intro waiting among other same
          cases among with
          | head =>
            cases same
            exact ⟨rfl, slot, there, held⟩
          | tail _ among => exact grown.awaiting waiting among other same
        counted := by
          intro codeId
          have counted := ledger.counted codeId
          simp only [Service.Course.halt, Service.Course.note, publishCount_cons, linkCount_cons,
            installCount_cons, awaitCount_cons]
          by_cases own : code.codeId = codeId
          · simp [publishes, links, installs, publishing, own]
            omega
          · simpa [publishes, links, installs, publishing, own] using counted
        truthful := by
          intro moment among other reply said
          cases among with
          | head => cases said
          | tail _ among => exact grown.truthful moment among other reply said }

/-- A call to publish code replies that it did. -/
theorem publish_end (ledger : Ledger course) {front back : List (service image).Pending}
    (among : course.pending = front ++ awaits image code :: back) :
    Ledger (({ course with pending := front ++ back } : (service image).Course).note
      (.replied (.call (.publish code)) (.published code))) where
  awaiting waiting member := ledger.awaiting waiting (Service.mem_rest among member)
  counted codeId := by
    have counted := ledger.counted codeId
    rw [among, awaitCount_append, awaitCount_cons] at counted
    simp only [Service.Course.note, publishCount_cons, linkCount_cons, installCount_cons,
      awaitCount_append]
    by_cases own : code.codeId = codeId
    · simp [publishes, links, installs, publishing, awaits, own] at counted ⊢
      omega
    · simp [publishes, links, installs, publishing, awaits, own] at counted ⊢
      omega
  truthful moment member other reply said := by
    cases member with
    | head =>
      cases said
      have holds := (ledger.awaiting (awaits image code) (by simp [among]) code rfl).2
      exact ⟨⟨rfl, holds⟩, rfl, holds⟩
    | tail _ member => exact ledger.truthful moment member other reply said

end Ledger

/-- The states of a course grow from each step to the next. -/
theorem Chronicle.halted {course : (service heap.image).Course} {event : (service heap.image).Event}
    {task : Task} {dialogue : Dialogue surroundings Cell task.Reply}
    (chronicle : Chronicle heap ((course.note event).halt task dialogue).past
      ((course.note event).halt task dialogue).state.state) :
    course.state.state.Grows ((course.note event).halt task dialogue).state.state := by
  refine chronicle.since _ ?_
  cases dialogue <;> exact List.mem_cons_of_mem _ List.mem_cons_self

/-- The ledger is right at every step of a course. -/
theorem Ledger.step {admits : (service heap.image).Course → Task → Prop}
    {first second : (service heap.image).Course} (ledger : Ledger first)
    (old : Chronicle heap first.past first.state.state)
    (new : Chronicle heap second.past second.state.state)
    (step : Service.Step admits first second) : Ledger second := by
  cases step with
  | call task admitted =>
    have noted : Ledger (first.note (.called task)) := ledger.note nofun
    by_cases publish : ∃ code, task = .call (.publish code)
    · obtain ⟨code, rfl⟩ := publish
      exact noted.publish old.orderly (perform_publish heap.image code first.state)
    · exact noted.halt (fun code same => publish ⟨code, same⟩) new.halted
  | @answer front back waiting answer among =>
    by_cases publish : ∃ code, waiting.call = .call (.publish code)
    · obtain ⟨code, published⟩ := publish
      obtain ⟨rfl, -⟩ := ledger.awaiting waiting (by simp [among]) code published
      have noted : Ledger (first.note (.answered (awaits heap.image code).call
          (awaits heap.image code).request answer)) := ledger.note nofun
      exact noted.publish_end among
    · have noted : Ledger (({ first with pending := front ++ back } :
          (service heap.image).Course).note (.answered waiting.call waiting.request answer)) :=
        (ledger.resume among).note nofun
      exact noted.halt (fun code same => publish ⟨code, same⟩) new.halted
  | drift state drifted => exact ledger.grow (.of_slots (by rw [drifted]))

/-! ## What is shown of a heap -/

/-- Code in an executable slot. -/
def State.Executes (state : State) (code : LinkedCode) : Prop :=
  ∃ (codeId : Nat) (slot : Slot), state.slots[codeId]? = some slot ∧
    slot.executable = some code

theorem executes_of_mem {slots : List Slot} (part : ∀ slot ∈ slots, slot ∈ state.slots)
    (among : slot ∈ slots) (executable : slot.executable = some code) : state.Executes code := by
  obtain ⟨codeId, bound, same⟩ := List.getElem_of_mem (part slot among)
  exact ⟨codeId, slot, List.getElem?_eq_some_iff.mpr ⟨bound, same⟩, executable⟩

theorem lookup_executes (found : state.lookup codeId = some code) : state.Executes code := by
  obtain ⟨found, -⟩ := Option.filter_eq_some_iff.mp found
  obtain ⟨slot, there, executable⟩ := Option.bind_eq_some_iff.mp found
  exact ⟨codeId, slot, there, executable⟩

theorem State.Orderly.lookup_own (orderly : state.Orderly)
    (found : state.lookup codeId = some code) : code.codeId = codeId :=
  orderly.executable_own (Option.filter_eq_some_iff.mp found).1

theorem aliveMethods_executes (alive : code ∈ state.aliveMethods) : state.Executes code := by
  obtain ⟨slot, among, executable⟩ := List.mem_filterMap.mp (List.mem_filter.mp alive).1
  exact executes_of_mem (fun _ member => member) among executable

theorem nextFrom_executes {start : Nat} (found : state.nextFrom start = some code) :
    state.Executes code := by
  obtain ⟨slot, among, executable⟩ := List.exists_of_findSome?_eq_some found
  exact executes_of_mem (fun _ member => List.mem_of_mem_drop member) among executable

theorem findOwner_executes {heap : Heap} {address : Nat}
    (found : heap.findOwner address = some code) : heap.state.Executes code := by
  obtain ⟨codeId, slot, owns, resolved⟩ := findOwner_some.mp found
  exact ⟨codeId, slot, owns.found, executable_some.mpr ⟨resolved, owns.handle⟩⟩

/-- In an orderly state code of an invalidated slot is not executable. -/
theorem State.Orderly.dead (orderly : state.Orderly)
    (invalidated : state.phase? codeId = some .invalidated) (holds : state.Holds codeId code) :
    ¬state.Executes code := by
  rintro ⟨other, slot, found, executable⟩
  obtain ⟨own, there, held⟩ := holds
  obtain ⟨resolved, handle⟩ := executable_some.mp executable
  have same : other = codeId :=
    ((orderly _ _ found).handle code handle).2.symm.trans ((orderly _ _ there).handle code held).2
  subst same
  simp [State.phase?, found, resolved] at invalidated

/-! ## The lifecycle -/

/-- A state yields no sign of a piece of code: neither by code id nor by address
nor in a walk. -/
structure Hides (heap : Heap) (code : LinkedCode) : Prop where
  lookup : ∀ codeId, heap.state.lookup codeId ≠ some code
  aliveMethods : code ∉ heap.state.aliveMethods
  first : heap.state.first ≠ some code
  next : ∀ codeId, heap.state.next codeId ≠ some code
  findOwner : ∀ address, heap.findOwner address ≠ some code

/-- What a course of a heap respects, whatever its engine answers and whatever
the engine calls back in between. -/
structure Lifecycle (heap : Heap) (course : (service heap.image).Course) : Prop where
  /-- Phases move in one direction and handles are written once. -/
  moves : (history heap course).Pairwise fun late old => ∀ (codeId : Nat) (slot : Slot),
    old.slots[codeId]? = some slot → ∃ later : Slot, late.slots[codeId]? = some later ∧
      slot.phase.Leads later.phase ∧ ∀ code, slot.handle = some code → later.handle = some code
  /-- A handle is there exactly if its slot was resolved at some time. -/
  present : ∀ codeId, (∃ code, course.state.state.Holds codeId code) ↔
    ∃ state ∈ history heap course, state.phase? codeId = some .resolved
  /-- Publishing succeeds at most once per slot, be it called for or part of
  linking a class. -/
  once : ∀ codeId, publishCount course.past codeId + linkCount course.past codeId ≤ 1
  /-- Every reply to publishing was and is true. -/
  truthful : ∀ moment ∈ course.past, ∀ code reply,
    moment.event = .replied (.call (.publish code)) reply →
    Truthful moment.state.state code reply ∧ Truthful course.state.state code reply
  /-- Publishing into an invalidated slot is refused. -/
  late : ∀ code, course.state.state.phase? code.codeId = some .invalidated →
    Task.perform heap.image (.call (.publish code)) course.state = .done .invalidated course.state
  /-- The code of an invalidated slot is not found any more. -/
  dead : ∀ codeId code, course.state.state.phase? codeId = some .invalidated →
    course.state.state.Holds codeId code → Hides { heap with state := course.state.state } code
  /-- A walk shows only what is executable when it is shown. -/
  shown : ∀ moment ∈ course.past, ∀ code, moment.event = .asked .methods (.method code) →
    moment.state.state.lookup code.codeId = some code
  /-- What was there at the beginning is a stub and stays executable. -/
  stubs : ∀ codeId stub, heap.state.Holds codeId stub →
    stub.isStub ∧ course.state.state.phase? codeId = some .resolved
  /-- Nobody ever waits for the second step of publishing. -/
  waiting : ∀ (code : LinkedCode) (slot : Slot), course.state.state.slots[code.codeId]? = some slot →
    (slot.publish code).1 ≠ .waiting

section Lifecycle

variable {admits : (service heap.image).Course → Task → Prop}
  {course : (service heap.image).Course}

theorem Reaches.ledger (pristine : heap.state.Pristine) (reached : Reaches heap admits course) :
    Ledger course := by
  obtain ⟨counters, journal, reached⟩ := reached
  induction reached with
  | refl => exact Ledger.start _
  | tail before step ih =>
    exact ih.step (Reaches.chronicle pristine ⟨counters, journal, before⟩)
      (Reaches.chronicle pristine ⟨counters, journal, before.tail step⟩) step

/-- Publishing into an invalidated slot is refused at once and changes
nothing. -/
theorem publish_late {cell : Cell} (invalidated : cell.state.phase? code.codeId = some .invalidated) :
    Task.perform image (.call (.publish code)) cell = .done .invalidated cell := by
  obtain ⟨slot, found, phase⟩ := Option.map_eq_some_iff.mp invalidated
  obtain ⟨_, handle, admitted⟩ := slot
  cases phase
  simp only [Task.perform, Heap.perform, Operation.lift, Action.answeredBy, publish,
    Operation.changeSlot, Operation.change, Action.bind_apply, Action.step_apply,
    Dialogue.bind_done, found, Slot.publish, State.set_same found]
  rfl

/-- The lifecycle of code slots, for every library that a heap can be created
for, every order of tasks and answers, and any nesting of them. -/
theorem lifecycle {library : Library} {journal : Journal}
    (created : ((Heap.create library).run journal).1 = .ok heap)
    (reached : Reaches heap admits course) : Lifecycle heap course := by
  have pristine := created_pristine created
  have chronicle := reached.chronicle pristine
  have ledger := reached.ledger pristine
  have grown : heap.state.Grows course.state.state :=
    chronicle.since _ (by simp [earlier])
  refine
    { moves := ?_
      present := chronicle.present
      once := ?_
      truthful := ledger.truthful
      late := fun code invalidated => publish_late invalidated
      dead := ?_
      shown := ?_
      stubs := ?_
      waiting := ?_ }
  · have grows : (history heap course).Pairwise fun late old => old.Grows late :=
      List.pairwise_cons.mpr ⟨chronicle.since, chronicle.grown⟩
    refine grows.imp fun {late old} grows codeId slot found => ?_
    obtain ⟨later, there, grown⟩ := grows.slots codeId slot found
    exact ⟨later, there, grown.phase, grown.handle⟩
  · intro codeId
    have counted := ledger.counted codeId
    have installed := chronicle.installed codeId
    omega
  · intro codeId code invalidated holds
    have dead := chronicle.orderly.dead invalidated holds
    exact
      { lookup := fun _ found => dead (lookup_executes found)
        aliveMethods := fun alive => dead (aliveMethods_executes alive)
        first := fun found => dead (nextFrom_executes found)
        next := fun _ found => dead (nextFrom_executes found)
        findOwner := fun _ found => dead (findOwner_executes found) }
  · intro moment among code said
    obtain ⟨codeId, alive⟩ := chronicle.shown moment among code said
    have orderly := chronicle.formerly moment.state.state
      (List.mem_append_left _ (List.mem_map_of_mem among))
    exact orderly.lookup_own alive ▸ alive
  · rintro codeId stub ⟨slot, found, held⟩
    obtain ⟨resolved, isStub, -⟩ := (pristine codeId slot found).stub stub held
    obtain ⟨later, there, onward⟩ := grown.slots codeId slot found
    refine ⟨isStub, ?_⟩
    simp [State.phase?, there, onward.stub stub held isStub resolved]
  · intro code slot found waits
    obtain ⟨phase, handle, admitted⟩ := slot
    cases phase with
    | invalidated => cases waits
    | resolved => cases handle <;> cases waits
    | unresolved =>
      cases handle with
      | none => cases waits
      | some other => exact ((chronicle.orderly _ _ found).handle other rfl).1 rfl

/-- A library with a single slot and nothing to put into it. -/
def bare : Library where
  name := "lib"
  id := 0
  bytes := []
  header := { (default : Blob.Header) with slotCount := 1 }
  settings := {}
  engineVersion := "1"
  symbols := []
  contents :=
    { code := [], segments := [], classes := [], codeRecords := [], codeDetails := [],
      dependents := [], metaspaceNames := [], objectNames := [], stubs := [0, 0, 0, 0],
      routines := [] }
  names := []
  mapped := false
  codeBase := 0
  valid := true

/-- Its heap. -/
def bareHeap : Heap :=
  { image := ⟨bare, [none]⟩, state := Image.initialState ⟨bare, [none]⟩ }

/-- Code for its slot. -/
def bareCode : LinkedCode where
  codeId := 0
  libraryId := 0
  name := ⟨"A", "m", "()V"⟩
  method := Handle.ofRaw? 1
  holder := Handle.ofRaw? 2
  classId := some 0
  start := 0
  size := 5
  entryOffset := 4
  verifiedEntryOffset := 4
  frameSize := 0
  metadataStart := 0
  metadataStop := 0

/-- A course of it in which nothing has happened. -/
def bareStart : (service bareHeap.image).Course where
  state := { state := bareHeap.state }

/-- Publishing the code has led to the engine. -/
def bareAsked : (service bareHeap.image).Course :=
  bareStart.begin (Task.call (.publish bareCode))

/-- The engine has installed the code. -/
def barePublished : (service bareHeap.image).Course :=
  Service.Course.resume { bareAsked with pending := [] ++ [] } (awaits bareHeap.image bareCode) ()

theorem lifecycle_bare : publishCount barePublished.past 0 = 1 ∧
    Lifecycle bareHeap barePublished := by
  have created : ((Heap.create bare).run []).1 = .ok bareHeap := rfl
  have among : bareAsked.pending = [] ++ awaits bareHeap.image bareCode :: [] := rfl
  have asked : Service.Step (fun (_ : (service bareHeap.image).Course) _ => True)
      bareStart (bareStart.begin (Task.call (.publish bareCode))) := .call _ trivial
  have published : Service.Step (fun (_ : (service bareHeap.image).Course) _ => True)
      bareAsked barePublished := .answer _ () among
  have reached : Reaches bareHeap (fun _ _ => True) barePublished :=
    ⟨{}, [], .tail (.single asked) published⟩
  exact ⟨by decide, lifecycle created reached⟩

end Lifecycle

end Precompiled.Heap
