import Precompiled.Proofs.Heap.Revocation
import Precompiled.Proofs.Session.Balance

/-! Engine and counters agree with the slots. However the tasks of a session are nested and
whatever they are answered, each slot is installed at most once and deoptimized at most
once, after it was installed; the counters count slots; and the replies of loads add up to
the installations that nobody asked for directly. -/
namespace Precompiled.Session

open Relation (ReflTransGen)

variable {session before after : Session} {place : Place}

/-! ## Slots of a session -/

/-- Whether the heap of a library begins with a stub in a slot. -/
def stubbed (library : Library) (codeId : Nat) : Bool :=
  (build library).toOption.any fun heap => (heap.state.slot? codeId).any fun slot => slot.2.isSome

/-- Whether a slot was given a stub when its heap was created. -/
def registered (session : Session) (place : Place) : Bool :=
  session.libraries[place.1]?.any fun library => stubbed library place.2

/-- Where the slots of a session are. -/
def places (session : Session) : List Place :=
  (List.range session.heaps.length).flatMap fun position =>
    (List.range (session.heaps[position]?.elim 0 fun heap => heap.state.slots.length)).map
      (Prod.mk position)

theorem places_nodup (session : Session) : session.places.Nodup := by
  refine List.nodup_flatMap.mpr ⟨fun position _ => ?_, ?_⟩
  · exact List.nodup_range.map (Prod.mk_right_injective position)
  · refine List.nodup_range.imp fun apart => List.disjoint_left.mpr fun place one other => ?_
    obtain ⟨codeId, -, rfl⟩ := List.mem_map.mp one
    obtain ⟨number, -, same⟩ := List.mem_map.mp other
    exact apart (congrArg Prod.fst same).symm

theorem mem_places (there : (session.slot? place).isSome) : place ∈ session.places := by
  obtain ⟨position, codeId⟩ := place
  obtain ⟨mark, there⟩ := Option.isSome_iff_exists.mp there
  obtain ⟨heap, found, placed⟩ := Option.bind_eq_some_iff.mp there
  obtain ⟨slot, inside, -⟩ := Heap.slot?_eq_some.mp placed
  obtain ⟨present, -⟩ := List.getElem?_eq_some_iff.mp found
  obtain ⟨bound, -⟩ := List.getElem?_eq_some_iff.mp inside
  refine List.mem_flatMap.mpr ⟨position, List.mem_range.mpr present, ?_⟩
  refine List.mem_map.mpr ⟨codeId, List.mem_range.mpr ?_, rfl⟩
  rwa [found]

/-! ## The balance of a session -/

/-- A slot of a heap that was just built holds nothing but perhaps a stub. -/
theorem built_slot {heap : Heap} (built : build heap.image.library = .ok heap) {codeId : Nat}
    {phase : Slot.Phase} {handle : Option LinkedCode}
    (there : heap.state.slot? codeId = some (phase, handle)) :
    Tidy (stubbed heap.image.library codeId) codeId phase handle ∧
      stubbed heap.image.library codeId = handle.isSome ∧ phase ≠ .invalidated := by
  have given : stubbed heap.image.library codeId = handle.isSome := by
    simp [stubbed, built, Except.toOption, there]
  obtain ⟨slot, found, rfl, rfl⟩ := Heap.slot?_eq_some.mp there
  have pristine := Heap.created_pristine built codeId slot found
  rw [given]
  cases held : slot.handle with
  | none =>
    have unresolved := pristine.free held
    rw [unresolved]
    exact ⟨⟨by simp, by simp, by simp⟩, rfl, by simp⟩
  | some stub =>
    obtain ⟨resolved, isStub, number⟩ := pristine.stub stub held
    rw [resolved]
    exact ⟨⟨by simp, by simpa using number, fun _ => ⟨rfl, stub, rfl, isStub⟩⟩, rfl, by simp⟩

/-- Registering heaps leaves the slots of the others alone. -/
theorem slot?_grown {fresh : List Heap} (grown : after.heaps = before.heaps ++ fresh)
    (present : place.1 < before.heaps.length) :
    after.slot? place = before.slot? place ∧ after.registered place = before.registered place := by
  have inside : place.1 < before.libraries.length := by simpa [libraries] using present
  have libraries : after.libraries = before.libraries ++ fresh.map fun heap => heap.image.library := by
    simp [Session.libraries, grown]
  constructor
  · rw [slot?, grown, List.getElem?_append_left present]
    rfl
  · rw [registered, libraries, List.getElem?_append_left inside]
    rfl

/-- Heaps that were just built keep the balance. -/
theorem Balance.enrol {installs deoptimizations : List Place} {fresh : List Heap}
    (balance : Balance before.registered before.book installs deoptimizations)
    (built : ∀ heap ∈ fresh, build heap.image.library = .ok heap)
    (grown : after.heaps = before.heaps ++ fresh) (same : after.counters = before.counters) :
    Balance after.registered after.book installs deoptimizations := by
  refine balance.extend (fun place phase handle there => ?_) (fun place phase handle none there => ?_)
    (by rw [book, same]; rfl) (by rw [book, same]; rfl)
  · obtain ⟨heap, found, -⟩ := Option.bind_eq_some_iff.mp there
    obtain ⟨present, -⟩ := List.getElem?_eq_some_iff.mp found
    obtain ⟨slots, stubs⟩ := slot?_grown grown present
    exact ⟨slots.trans there, stubs⟩
  · by_cases present : place.1 < before.heaps.length
    · -- A heap that was there already has no slots that are new.
      cases none.symm.trans ((slot?_grown grown present).1.symm.trans there)
    · obtain ⟨heap, found, placed⟩ := Option.bind_eq_some_iff.mp there
      have known : after.registered place = stubbed heap.image.library place.2 := by
        simp [registered, libraries, found]
      rw [grown, List.getElem?_append_right (Nat.le_of_not_lt present)] at found
      rw [known]
      exact built_slot (built heap (List.mem_of_getElem? found)) placed

/-! ## The past of a session -/

/-- The slot that a moment is about, if it asked a question of the given kind. -/
def Moment.told (about : surroundings.Request → Option Place) (moment : service.Moment) :
    Option Place :=
  match moment.event with
  | .asked _ question => about question
  | _ => none

/-- The slots whose code the engine was told to install, the latest first. -/
def installs (past : List service.Moment) : List Place :=
  past.filterMap (Moment.told installation)

/-- The slots whose code the engine was told to leave, the latest first. -/
def deoptimizations (past : List service.Moment) : List Place :=
  past.filterMap (Moment.told farewell)

theorem told_cons (about : surroundings.Request → Option Place) (moment : service.Moment)
    (past : List service.Moment) :
    (moment :: past).filterMap (Moment.told about) =
      (Moment.told about moment).toList ++ past.filterMap (Moment.told about) := by
  cases told : Moment.told about moment <;> simp [told]

/-- Code was deoptimized only after it was installed. -/
def Ordered (past : List service.Moment) : Prop :=
  ∀ newer moment older, past = newer ++ moment :: older →
    ∀ place, Moment.told farewell moment = some place → place ∈ installs older

theorem Ordered.cons {past : List service.Moment} {moment : service.Moment} (ordered : Ordered past)
    (known : ∀ place, Moment.told farewell moment = some place → place ∈ installs past) :
    Ordered (moment :: past) := by
  intro newer other older split
  cases newer with
  | nil =>
    obtain ⟨rfl, rfl⟩ := List.cons.inj split
    exact known
  | cons first newer =>
    obtain ⟨-, rest⟩ := List.cons.inj split
    exact ordered newer other older rest

/-- What holds of the past and the state of a session. -/
structure Ledger (past : List service.Moment) (session : Session) : Prop where
  balance : Balance session.registered session.book (installs past) (deoptimizations past)
  ordered : Ordered past

namespace Ledger

variable {past : List service.Moment}

theorem turn (ledger : Ledger past before) (turn : Turn before after) : Ledger past after where
  ordered := ledger.ordered
  balance := by
    cases turn with
    | enrol fresh built grown same => exact ledger.balance.enrol built grown same
    | work booked same =>
      have stubs : after.registered = before.registered := by
        funext place
        rw [registered, same]
        rfl
      exact stubs ▸ ledger.balance.booking booked

theorem poses {call : Task} {question : surroundings.Request} (ledger : Ledger past before)
    (poses : Poses question before after) :
    Ledger (⟨.asked call question, after⟩ :: past) after := by
  obtain ⟨position, question⟩ := question
  have stubs : after.registered = before.registered := by
    funext place
    rw [registered, poses.same]
    rfl
  refine ⟨?_, ledger.ordered.cons fun place told => ?_⟩
  · rw [installs, deoptimizations, told_cons, told_cons, stubs]
    exact ledger.balance.posting poses.posted
  · exact ledger.balance.farewell_installed poses.posted told

/-- Moments without a question are of no account. -/
theorem silent {moment : service.Moment} (ledger : Ledger past session)
    (silent : ∀ about, Moment.told about moment = none) : Ledger (moment :: past) session where
  balance := by
    rw [installs, deoptimizations, told_cons, told_cons, silent, silent]
    exact ledger.balance
  ordered := ledger.ordered.cons fun place told => by
    rw [silent] at told
    cases told

end Ledger

/-- Whatever keeps to the customs of a session keeps its ledger. -/
theorem ledger_preserved : customs.Preserves (fun _ => True) Ledger where
  changed _ ledger turn := ledger.turn turn
  asked _ ledger poses := ledger.poses poses
  called _ ledger := ledger.silent fun _ => rfl
  answered _ ledger := ledger.silent fun _ => rfl
  replied _ ledger _ := ledger.silent fun _ => rfl
  drifted ledger drifted := by
    rw [drifted]
    exact ⟨ledger.balance, ledger.ordered⟩

/-- A session whose heaps were just created has an empty ledger. -/
theorem ledger_fresh (built : ∀ heap ∈ session.heaps, build heap.image.library = .ok heap)
    (unspent : session.counters = {}) : Ledger [] session where
  ordered newer moment older split := by simp at split
  balance := by
    have empty : Balance (registered { session with heaps := [] })
        (book { session with heaps := [] }) [] [] :=
      { tidy := fun place phase handle there => by cases there
        installed := ⟨.nil, fun place => by simp [book, slot?, Heap.Book.holds]⟩
        deoptimized := ⟨.nil, fun place => by simp [book, slot?, Heap.Book.dead]⟩
        invalidated := ⟨[], ⟨.nil, fun place => by simp [book, slot?, Heap.Book.dead]⟩, by
          simp [book, unspent]⟩
        published := by simp [book, unspent] }
    exact empty.enrol built rfl rfl

/-! ## Loads and their counts -/

/-- The weight that a question of a heap has for a task, whichever heap asks. -/
def weigh (task : Heap.Task) (question : surroundings.Request) : Nat :=
  task.weight question.2

/-- The weight that a question has for a task. Publishing given code is nobody's load. -/
def Task.weight : Task → surroundings.Request → Nat
  | .one _ task, question | .all task, question => weigh task question
  | .offer _, question => question.2.weight

/-- How many methods the reply to a task counts. -/
def Task.worth : (task : Task) → task.Reply → Nat
  | .one _ task, reply => (reply : Option task.Reply).elim 0 task.worth
  | .all task, replies => ((replies : List task.Reply).map task.worth).sum
  | .offer _, _ => 0

theorem taskAt_weighs (task : Heap.Task) (position : Nat) :
    (taskAt task position).Weighs (weigh task) (fun reply => reply.elim 0 task.worth) 0 := by
  refine Action.Light.bind (Action.light_read _) fun found => ?_
  cases found with
  | none => exact Action.weighs_pure rfl
  | some heap =>
    have seated : (seat position (task.perform heap.image)).Weighs (weigh task) task.worth 0 :=
      fun session => ((Heap.task_weighs task _).within session).answeredBy
        fun _ _ _ _ => (Nat.zero_add _).symm
    exact seated.bind fun reply => Action.weighs_pure rfl

theorem taskEach_weighs (task : Heap.Task) (positions : List Nat) :
    (taskEach task positions).Weighs (weigh task)
      (fun replies => (replies.map task.worth).sum) 0 := by
  induction positions with
  | nil => exact Action.weighs_pure rfl
  | cons position rest ih =>
    refine (taskAt_weighs task position).bind fun reply => ?_
    cases reply with
    | none => exact ih
    | some reply =>
      have shifted := ih.shift (task.worth reply)
      rw [Nat.zero_add] at shifted
      exact shifted.bind fun others => Action.weighs_pure (Nat.add_comm _ _)

/-- Whatever the answers are, a task's reply is worth its questions. -/
theorem task_weighs (task : Task) : task.perform.Weighs task.weight task.worth 0 := by
  cases task with
  | one position task => exact taskAt_weighs task position
  | all task => exact Action.Light.bind (Action.light_read _) fun _ => taskEach_weighs task _
  | offer made => exact fun session => rfl

/-! ## The accounts -/

/-- Whether a slot holds a handle that was not there from the beginning. -/
def published (session : Session) (place : Place) : Bool :=
  session.book.holds place && !session.registered place

/-- Whether a slot was invalidated while it held a handle. -/
def abandoned (session : Session) (place : Place) : Bool :=
  session.book.dead place && session.book.holds place

/-- The engine's events and the counters account for every slot. -/
structure Accounts (course : service.Course) : Prop where
  counted : course.state.counters.methodsPublished = (installs course.past).length
  published : (installs course.past).length = course.state.places.countP course.state.published
  invalidated : course.state.counters.methodsInvalidated =
    course.state.places.countP course.state.book.dead
  abandoned : (deoptimizations course.past).length =
    course.state.places.countP course.state.abandoned
  installedOnce : (installs course.past).Nodup
  deoptimizedOnce : (deoptimizations course.past).Nodup
  ordered : Ordered course.past
  repaid : course.pending = [] →
    Service.asked Task.weight course.past = Service.repaid Task.worth course.past

/-- Whatever the tasks of a session are, however they are nested and whatever they are
answered, the engine's events and the counters account for every slot. -/
theorem slots_accounted (built : ∀ heap ∈ session.heaps, build heap.image.library = .ok heap)
    (unspent : session.counters = {}) {course : service.Course}
    (reached : Service.Reaches (fun _ _ => True) session course) : Accounts course := by
  have ledger : Ledger course.past course.state :=
    reached.holding customs_kept ledger_preserved.sustains (fun _ _ _ => trivial)
      (ledger_fresh built unspent)
  have balanced : Service.Balanced Task.weight Task.worth course := reached.balanced task_weighs
  have once := places_nodup course.state
  have holding : ∀ place, course.state.book.holds place → place ∈ course.state.places :=
    fun place held => mem_places (Option.isSome_of_any held)
  have dead : ∀ place, course.state.book.dead place → place ∈ course.state.places :=
    fun place fallen => mem_places (Option.isSome_of_any fallen)
  obtain ⟨fallen, named, counted⟩ := ledger.balance.invalidated
  -- The lists of the balance name each slot once, so their lengths are counts over all slots.
  exact
    { counted := ledger.balance.published
      published := ledger.balance.installed.length_eq once fun place chosen =>
        holding place (Bool.and_elim_left chosen)
      invalidated := counted.symm.trans (named.length_eq once dead)
      abandoned := ledger.balance.deoptimized.length_eq once fun place chosen =>
        dead place (Bool.and_elim_left chosen)
      installedOnce := ledger.balance.installed.once
      deoptimizedOnce := ledger.balance.deoptimized.once
      ordered := ledger.ordered
      repaid := balanced.settled }

/-- A session with one heap. -/
def solo (heap : Heap) : Session :=
  { options := {}, engine := {}, heaps := [heap] }

/-- An engine that has the one method, whichever heap asks. -/
def lavish : Engine.Table :=
  fun request => Heap.lavish (.engine request)

/-- The session after the engine loaded the class of the sample and redefined it. -/
def soloAfter (heap : Heap) : Session :=
  calledAll lavish [.loadClass Heap.sampleView, .flush Heap.sampleView.klass] (solo heap)

set_option maxRecDepth 1000000 in
theorem solo_counts : (Heap.built? Heap.single).any (fun built =>
    (soloAfter built.2).counters.methodsPublished == 1 &&
      (soloAfter built.2).counters.methodsInvalidated == 1) = true := by
  decide +kernel

theorem slots_accounted_solo : ∃ (heap : Heap) (course : service.Course),
    (∀ other ∈ (solo heap).heaps, build other.image.library = .ok other) ∧
    (solo heap).counters = {} ∧ Service.Reaches (fun _ _ => True) (solo heap) course ∧
    course.pending = [] ∧ course.state = soloAfter heap ∧
    course.state.counters.methodsPublished = 1 ∧
    course.state.counters.methodsInvalidated = 1 ∧ Accounts course := by
  obtain ⟨⟨library, heap⟩, made, both⟩ := (Option.any_eq_true _ _).mp solo_counts
  obtain ⟨-, created⟩ := Heap.built_some made
  obtain ⟨published, invalidated⟩ := Bool.and_eq_true_iff.mp both
  have built : ∀ other ∈ (solo heap).heaps, build other.image.library = .ok other := by
    intro other among
    obtain rfl := List.mem_singleton.mp among
    rw [build_library created]
    exact created
  obtain ⟨course, reached, idle, state⟩ : ∃ course,
      Service.Reaches (fun _ _ => True) (solo heap) course ∧ course.pending = [] ∧
        course.state = soloAfter heap :=
    calls_carried lavish _ { state := solo heap } rfl fun _ _ _ _ => trivial
  refine ⟨heap, course, built, rfl, reached, idle, state, ?_, ?_, slots_accounted built rfl reached⟩
  · rw [state]
    exact beq_iff_eq.mp published
  · rw [state]
    exact beq_iff_eq.mp invalidated

end Precompiled.Session
