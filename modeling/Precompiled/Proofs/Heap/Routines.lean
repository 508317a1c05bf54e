import Precompiled.Proofs.Heap.Gate
import Precompiled.Proofs.Heap.Loading
import Precompiled.Proofs.Heap.Revocation

/-! The routines of the engine over a whole course of a heap. They are looked up in one
pass, whatever is called back into meanwhile. The pass leaves the heap linked or unusable,
and both are for good. -/
namespace Precompiled.Heap

open Relation (ReflTransGen)

variable {heap : Heap} {image : Image} {task : Task} {course : (service image).Course}

/-! ## What the past says -/

/-- A pass over the routines begins. -/
def Begins (moment : (service image).Moment) : Prop :=
  ∃ task, moment.event = .called task ∧ Tries image task moment.state

/-- The routine that the engine is asked for. -/
def sought : (service image).Event → Option String
  | .asked _ (.engine (.findRoutine name)) => some name
  | _ => none

/-- The routine that the engine was asked for, with its answer. -/
def told : (service image).Event → Option (String × Option Nat)
  | .answered _ (.engine (.findRoutine name)) answer => some (name, answer)
  | _ => none

/-- The routines that the engine was asked for, the earliest first. -/
def inquiries (past : Past image) : List String :=
  past.reverse.filterMap fun moment => sought moment.event

/-- What it answered, the earliest first. -/
def findings (past : Past image) : List (String × Option Nat) :=
  past.reverse.filterMap fun moment => told moment.event

section Past

variable {past : Past image} {moment : (service image).Moment} {asked : List String}
  {answers : List (String × Option Nat)}

theorem inquiries_cons (moment : (service image).Moment) (past : Past image) :
    inquiries (moment :: past) = inquiries past ++ (sought moment.event).toList := by
  cases found : sought moment.event <;> simp [inquiries, found]

theorem findings_cons (moment : (service image).Moment) (past : Past image) :
    findings (moment :: past) = findings past ++ (told moment.event).toList := by
  cases found : told moment.event <;> simp [findings, found]

/-- A moment that has nothing to do with routines. -/
structure Incidental (moment : (service image).Moment) : Prop where
  idle : ¬Begins moment
  sought : sought moment.event = none
  told : told moment.event = none

/-- What the past says about the pass: which task makes it, what was asked and what the
answers were. -/
structure Attempt (task : Task) (asked : List String) (answers : List (String × Option Nat))
    (past : Past image) : Prop where
  begun : ∃ moment ∈ past, Begins moment ∧ moment.event.call = task
  once : past.Pairwise fun late early => ¬(Begins late ∧ Begins early)
  own : ∀ moment ∈ past, ∀ asker name,
    moment.event = .asked asker (.engine (.findRoutine name)) → asker = task
  asked : inquiries past = asked
  answers : findings past = answers

/-- What the past says, quiet moments leave unsaid. -/
def Lasts (holds : Past image → Prop) : Prop :=
  ∀ moment past, Incidental moment → holds past → holds (moment :: past)

/-- Nothing has been attempted. -/
def Unattempted (past : Past image) : Prop :=
  ∀ moment ∈ past, Incidental moment

theorem unattempted_lasts : Lasts fun past : Past image => Unattempted past :=
  fun _ _ incidental rest => List.forall_mem_cons.mpr ⟨incidental, rest⟩

theorem Unattempted.silent (idle : Unattempted past) : inquiries past = [] ∧ findings past = [] :=
  ⟨List.filterMap_eq_nil_iff.mpr fun moment among => (idle moment (List.mem_reverse.mp among)).sought,
    List.filterMap_eq_nil_iff.mpr fun moment among => (idle moment (List.mem_reverse.mp among)).told⟩

/-- A pass that has begun goes on. -/
theorem Attempt.note (attempt : Attempt task asked answers past)
    (moment : (service image).Moment) (idle : ¬Begins moment)
    (own : ∀ asker name, moment.event = .asked asker (.engine (.findRoutine name)) → asker = task) :
    Attempt task (asked ++ (sought moment.event).toList) (answers ++ (told moment.event).toList)
      (moment :: past) where
  begun := by
    obtain ⟨opening, among, begun⟩ := attempt.begun
    exact ⟨opening, List.mem_cons_of_mem _ among, begun⟩
  once := List.pairwise_cons.mpr ⟨fun _ _ both => idle both.1, attempt.once⟩
  own := List.forall_mem_cons.mpr ⟨own, attempt.own⟩
  asked := by rw [inquiries_cons, attempt.asked]
  answers := by rw [findings_cons, attempt.answers]

theorem attempt_lasts : Lasts fun past : Past image => Attempt task asked answers past := by
  intro moment past incidental attempt
  have noted := attempt.note moment incidental.idle fun asker name said => by
    cases said ▸ incidental.sought
  rwa [incidental.sought, incidental.told, Option.toList_none, Option.toList_none,
    List.append_nil, List.append_nil] at noted

/-- The pass begins with a load that tries the gate. -/
theorem Unattempted.attempt {cell : Cell} (idle : Unattempted past) (tries : Tries image task cell) :
    Attempt task [] [] (⟨.called task, cell⟩ :: past) where
  begun := ⟨_, List.mem_cons_self, ⟨task, rfl, tries⟩, rfl⟩
  once := by
    refine List.pairwise_cons.mpr ⟨fun early among both => (idle early among).idle both.2, ?_⟩
    exact List.pairwise_of_forall_mem_list fun late among _ _ both => (idle late among).idle both.1
  own := by
    intro other among asker name said
    cases among with
    | head => cases said
    | tail _ among => cases said ▸ (idle other among).sought
  asked := by rw [inquiries_cons, idle.silent.1]; rfl
  answers := by rw [findings_cons, idle.silent.2]; rfl

theorem not_begins_asked {question : Question} {cell : Cell} :
    ¬Begins (⟨.asked task question, cell⟩ : (service image).Moment) := by
  rintro ⟨_, ⟨⟩, _⟩

theorem not_begins_answered {question : Question} {answer : question.Answer} {cell : Cell} :
    ¬Begins (⟨.answered task question answer, cell⟩ : (service image).Moment) := by
  rintro ⟨_, ⟨⟩, _⟩

/-- The engine is asked for the next routine. -/
theorem Attempt.ask {name : String} {cell : Cell} (attempt : Attempt task asked answers past) :
    Attempt task (asked ++ [name]) answers
      (⟨.asked task (.engine (.findRoutine name)), cell⟩ :: past) := by
  have noted : Attempt task (asked ++ [name]) (answers ++ []) _ :=
    attempt.note ⟨.asked task (.engine (.findRoutine name)), cell⟩ not_begins_asked
      fun asker other said => by cases said; rfl
  rwa [List.append_nil] at noted

/-- The engine answers. -/
theorem Attempt.answer {name : String} {answer : Option Nat} {cell : Cell}
    (attempt : Attempt task asked answers past) :
    Attempt task asked (answers ++ [(name, answer)])
      (⟨.answered task (.engine (.findRoutine name)) answer, cell⟩ :: past) := by
  have noted : Attempt task (asked ++ []) (answers ++ [(name, answer)]) _ :=
    attempt.note ⟨.answered task (.engine (.findRoutine name)) answer, cell⟩ not_begins_answered
      fun asker other said => by cases said
  rwa [List.append_nil] at noted

end Past

/-! ## Between the halts of the pass -/

theorem sought_other {question : Question}
    (other : ∀ name, question ≠ .engine (.findRoutine name)) :
    sought (.asked task question : (service image).Event) = none := by
  unfold sought
  split
  · rename_i same
    cases same
    exact absurd rfl (other _)
  · rfl

theorem told_other {question : Question} (other : ∀ name, question ≠ .engine (.findRoutine name))
    (answer : question.Answer) : told (.answered task question answer : (service image).Event) = none := by
  unfold told
  split
  · rename_i same
    cases same
    exact absurd rfl (other _)
  · rfl

/-- A question whose answer leaves the gate alone, where `now` is what became of it since
the question was asked. -/
def Minds (now : Gate) (waiting : (service image).Pending) : Prop :=
  (∀ name, waiting.request ≠ .engine (.findRoutine name)) ∧
  ∃ seen, gating.rely seen now ∧ ∀ answer (after : Cell), gating.rely seen after.state.gate →
    Spares after.state.gate (waiting.resume answer after)

theorem Minds.later {now then_ : Gate} {waiting : (service image).Pending} (minds : Minds now waiting)
    (rely : gating.rely now then_) : Minds then_ waiting := by
  obtain ⟨other, seen, known, resumes⟩ := minds
  refine ⟨other, seen, fun linked => ?_, resumes⟩
  obtain rfl := known linked
  exact rely linked

/-- The engine is told to install code. -/
def Installing (moment : (service image).Moment) : Prop :=
  ∃ task code, moment.event = .asked task (.engine (.install code))

/-- A course in which the gate stays as it is, unless one of the open questions that are
excepted is answered. -/
structure Still (gate : Gate) (excepted : (service image).Pending → Prop) (holds : Past image → Prop)
    (course : (service image).Course) : Prop where
  seen : course.state.state.gate = gate
  minds : ∀ waiting ∈ course.pending, excepted waiting ∨ Minds gate waiting
  one : course.pending.Pairwise fun first second => Minds gate first ∨ Minds gate second
  past : holds course.past
  installed : ∀ moment ∈ course.past, Installing moment → gate.routines.isSome

section Halts

variable {gate now : Gate} {excepted : (service image).Pending → Prop} {holds : Past image → Prop}

/-- Something happens that has nothing to do with routines. -/
theorem Still.note (still : Still gate excepted holds course) (lasts : Lasts holds)
    {event : (service image).Event} (incidental : Incidental ⟨event, course.state⟩)
    (other : ¬Installing ⟨event, course.state⟩) : Still gate excepted holds (course.note event) where
  seen := still.seen
  minds := still.minds
  one := still.one
  past := lasts _ _ incidental still.past
  installed := List.forall_mem_cons.mpr ⟨fun installs => absurd installs other, still.installed⟩

/-- A task comes to its next halt and leaves the gate settled. -/
theorem Still.halt (still : Still gate excepted holds course) (lasts : Lasts holds)
    (rely : gating.rely gate now) {dialogue : Dialogue surroundings Cell task.Reply}
    (spares : Spares now dialogue) : Still now excepted holds (course.halt task dialogue) := by
  have minds : ∀ waiting ∈ course.pending, excepted waiting ∨ Minds now waiting :=
    fun waiting among => (still.minds waiting among).imp_right fun minds => minds.later rely
  have one : course.pending.Pairwise fun first second => Minds now first ∨ Minds now second :=
    still.one.imp fun either => either.imp (·.later rely) (·.later rely)
  have installed : ∀ moment ∈ course.past, Installing moment → now.routines.isSome := by
    intro moment among installs
    have linked := still.installed moment among installs
    exact rely linked ▸ linked
  cases dialogue with
  | done reply cell =>
    refine ⟨spares, minds, one, lasts _ _ ⟨?_, rfl, rfl⟩ still.past, ?_⟩
    · rintro ⟨_, ⟨⟩, _⟩
    · refine List.forall_mem_cons.mpr ⟨?_, installed⟩
      rintro ⟨_, _, ⟨⟩⟩
  | ask question cell resume =>
    obtain ⟨same, effect, ⟨rfl, other, behind⟩, resumes⟩ := spares
    have own : Minds now (⟨task, question, resume⟩ : (service image).Pending) :=
      ⟨other, now, fun _ => rfl, resumes⟩
    refine ⟨same, List.forall_mem_cons.mpr ⟨.inr own, minds⟩,
      List.pairwise_cons.mpr ⟨fun _ _ => .inl own, one⟩, lasts _ _ ⟨?_, ?_, rfl⟩ still.past, ?_⟩
    · rintro ⟨_, ⟨⟩, _⟩
    · exact sought_other other
    · refine List.forall_mem_cons.mpr ⟨?_, installed⟩
      rintro ⟨_, code, said⟩
      cases said
      exact behind code rfl

/-- A task begins that does not try the gate. -/
theorem Still.call (still : Still gate excepted holds course) (lasts : Lasts holds)
    (idle : ¬Tries image task course.state) (native : Native course task) :
    Still gate excepted holds (course.begin task) := by
  have called : Incidental (⟨.called task, course.state⟩ : (service image).Moment) := by
    refine ⟨?_, rfl, rfl⟩
    rintro ⟨_, ⟨⟩, tries⟩
    exact idle tries
  have noted := still.note lasts called (by rintro ⟨_, _, ⟨⟩⟩)
  exact noted.halt lasts (fun _ => rfl) (still.seen ▸ task_spares idle native)

section Answers

variable {front back : List (service image).Pending} {waiting : (service image).Pending}
  (among : course.pending = front ++ waiting :: back)
include among

/-- A question is no longer open. -/
theorem Still.rest (still : Still gate excepted holds course) :
    Still gate excepted holds { course with pending := front ++ back } where
  seen := still.seen
  minds other member := still.minds other (Service.mem_rest among member)
  one := still.one.sublist (among ▸ (List.sublist_cons_self waiting back).append_left front)
  past := still.past
  installed := still.installed

/-- A question is answered that leaves the gate alone. -/
theorem Still.answer (still : Still gate excepted holds course) (lasts : Lasts holds)
    (minds : Minds gate waiting) (answer : waiting.request.Answer) :
    Still gate excepted holds
      (Service.Course.resume { course with pending := front ++ back } waiting answer) := by
  obtain ⟨other, seen, known, resumes⟩ := minds
  have answered : Incidental (⟨.answered waiting.call waiting.request answer, course.state⟩ :
      (service image).Moment) := ⟨not_begins_answered, rfl, told_other other answer⟩
  have noted := (still.rest among).note lasts answered (by rintro ⟨_, _, ⟨⟩⟩)
  refine noted.halt lasts (fun _ => rfl) ?_
  have spares := resumes answer course.state (still.seen.symm ▸ known)
  rwa [still.seen] at spares

end Answers

end Halts

/-! ## Courses -/

/-- Nobody publishes foreign code, and no class is loaded while the engine looks for a
routine. -/
structure Separate (course : (service image).Course) (task : Task) : Prop where
  native : Native course task
  apart : ∀ view, task = .call (.loadClass view) → ∀ waiting ∈ course.pending, ∀ name,
    waiting.request ≠ .engine (.findRoutine name)

/-- Where a heap stands with its routines. -/
inductive Standing (course : (service image).Course) : Prop where
  | untried (still : Still .untried (fun _ => False) Unattempted course)
  | underway {task : Task} {early rest : List String} {name : String} {found : List Nat}
    {resume : Option Nat → Cell → Dialogue surroundings Cell task.Reply}
    (passing : ⟨task, .engine (.findRoutine name), resume⟩ ∈ course.pending)
    (known : image.library.routines = .ok (early ++ name :: rest))
    (even : found.length = early.length)
    (still : Still .untried (· = ⟨task, .engine (.findRoutine name), resume⟩)
      (Attempt task (early ++ [name]) (early.zip (found.map some))) course)
    (resumes : ∀ after : Cell, after.state.gate = .untried → Spares .closed (resume none after) ∧
      ∀ address, Passes (found ++ [address]) rest (resume (some address) after))
  | linked {task : Task} {names : List String} {addresses : List Nat}
    (known : image.library.routines = .ok names) (even : addresses.length = names.length)
    (still : Still (.linked addresses) (fun _ => False)
      (Attempt task names (names.zip (addresses.map some))) course)
  | closed {task : Task} {asked : List String} {answers : List (String × Option Nat)}
    (known : asked = [] ∨ ∃ names, image.library.routines = .ok names ∧ asked <+: names)
    (still : Still .closed (fun _ => False) (Attempt task asked answers) course)

/-- The pass goes on to its next halt. -/
theorem Standing.pass {early rest : List String} {found : List Nat}
    {dialogue : Dialogue surroundings Cell task.Reply}
    (still : Still .untried (fun _ => False) (Attempt task early (early.zip (found.map some))) course)
    (known : image.library.routines = .ok (early ++ rest)) (even : found.length = early.length)
    (passes : Passes found rest dialogue) : Standing (course.halt task dialogue) := by
  cases rest with
  | nil =>
    rw [List.append_nil] at known
    exact .linked known even (still.halt attempt_lasts nofun passes)
  | cons name rest =>
    obtain ⟨cell, resume, rfl, untried, resumes⟩ := passes
    have minds : ∀ other ∈ course.pending, Minds .untried other :=
      fun other among => (still.minds other among).resolve_left id
    refine .underway List.mem_cons_self known even ?_ resumes
    exact
      { seen := untried
        minds := List.forall_mem_cons.mpr ⟨.inl rfl, fun other among => .inr (minds other among)⟩
        one := List.pairwise_cons.mpr ⟨fun other among => .inr (minds other among), still.one⟩
        past := still.past.ask
        installed := List.forall_mem_cons.mpr ⟨by rintro ⟨_, _, ⟨⟩⟩, still.installed⟩ }

section Steps

variable {final : (service image).Course} {gate : Gate} {holds : Past image → Prop}

/-- The counters and the journal have nothing to do with the gate. -/
theorem Still.drift {excepted : (service image).Pending → Prop}
    (still : Still gate excepted holds course) {cell : Cell}
    (drifted : (service image).drift course.state cell) :
    Still gate excepted holds { course with state := cell } := by
  have same : cell.state = course.state.state := drifted
  exact ⟨by rw [same]; exact still.seen, still.minds, still.one, still.past, still.installed⟩

/-- A heap that has tried its gate does not try it again. -/
theorem Still.step (still : Still gate (fun _ => False) holds course) (lasts : Lasts holds)
    (tried : gate ≠ .untried) (step : Service.Step Separate course final) :
    Still gate (fun _ => False) holds final := by
  cases step with
  | call task admitted =>
    refine still.call lasts ?_ admitted.native
    rintro ⟨_, _, _, _, untried, _⟩
    exact tried (still.seen.symm.trans untried)
  | @answer front back waiting answer among =>
    have mine : waiting ∈ course.pending := by simp [among]
    exact still.answer among lasts ((still.minds waiting mine).resolve_left id) answer
  | drift cell drifted => exact still.drift drifted

theorem Still.steps (still : Still gate (fun _ => False) holds course) (lasts : Lasts holds)
    (tried : gate ≠ .untried) (onward : ReflTransGen (Service.Step Separate) course final) :
    Still gate (fun _ => False) holds final := by
  induction onward with
  | refl => exact still
  | tail _ step ih => exact ih.step lasts tried step

/-- The first load that matches its class makes the pass. -/
theorem Standing.try (still : Still .untried (fun _ => False) Unattempted course)
    (tries : Tries image task course.state) : Standing (course.begin task) := by
  have begun : Still .untried (fun _ => False) (Attempt task [] []) (course.note (.called task)) :=
    { seen := still.seen
      minds := still.minds
      one := still.one
      past := still.past.attempt tries
      installed := List.forall_mem_cons.mpr ⟨by rintro ⟨_, _, ⟨⟩⟩, still.installed⟩ }
  cases known : image.library.routines with
  | error error => exact .closed (.inl rfl) (begun.halt attempt_lasts nofun (tries_closes tries known))
  | ok names => exact .pass begun known rfl (tries_passes tries known)

/-- The engine answers for the routine that is looked for. -/
theorem Standing.resume {front back : List (service image).Pending} {early rest : List String}
    {name : String} {found : List Nat}
    {resume : Option Nat → Cell → Dialogue surroundings Cell task.Reply}
    (among : course.pending = front ++ ⟨task, .engine (.findRoutine name), resume⟩ :: back)
    (known : image.library.routines = .ok (early ++ name :: rest))
    (even : found.length = early.length)
    (still : Still .untried (· = ⟨task, .engine (.findRoutine name), resume⟩)
      (Attempt task (early ++ [name]) (early.zip (found.map some))) course)
    (resumes : ∀ after : Cell, after.state.gate = .untried → Spares .closed (resume none after) ∧
      ∀ address, Passes (found ++ [address]) rest (resume (some address) after))
    (answer : Option Nat) :
    Standing (Service.Course.resume { course with pending := front ++ back }
      ⟨task, .engine (.findRoutine name), resume⟩ answer) := by
  -- Of two open questions at most one is about a routine, and this is the one.
  have minds : ∀ other ∈ front ++ back, Minds .untried other := by
    have one := still.one
    rw [among, List.pairwise_middle Or.symm] at one
    refine fun other member => ((List.pairwise_cons.mp one).1 other member).resolve_left ?_
    exact fun mine => mine.1 name rfl
  let answered : (service image).Course := Service.Course.note
    { course with pending := front ++ back } (.answered task (.engine (.findRoutine name)) answer)
  have noted : Still .untried (fun _ => False)
      (Attempt task (early ++ [name]) (early.zip (found.map some) ++ [(name, answer)])) answered :=
    { seen := still.seen
      minds := fun other member => .inr (minds other member)
      one := List.pairwise_of_forall_mem_list fun other member _ _ => .inl (minds other member)
      past := still.past.answer
      installed := List.forall_mem_cons.mpr ⟨by rintro ⟨_, _, ⟨⟩⟩, still.installed⟩ }
  obtain ⟨closes, passes⟩ := resumes course.state still.seen
  cases answer with
  | none =>
    refine .closed (.inr ⟨_, known, ?_⟩) (noted.halt attempt_lasts nofun closes)
    exact ⟨rest, by simp⟩
  | some address =>
    have zipped : early.zip (found.map some) ++ [(name, some address)] =
        (early ++ [name]).zip ((found ++ [address]).map some) := by
      rw [List.map_append, List.zip_append (by simp [even])]
      rfl
    rw [zipped] at noted
    exact .pass noted (by rw [known]; simp) (by simp [even]) (passes address)

theorem Standing.step (standing : Standing course) (step : Service.Step Separate course final) :
    Standing final := by
  cases standing with
  | linked known even still => exact .linked known even (still.step attempt_lasts nofun step)
  | closed known still => exact .closed known (still.step attempt_lasts nofun step)
  | untried still =>
    cases step with
    | call task admitted =>
      by_cases tries : Tries image task course.state
      · exact .try still tries
      · exact .untried (still.call unattempted_lasts tries admitted.native)
    | @answer front back waiting answer among =>
      have mine : waiting ∈ course.pending := by simp [among]
      have minds := (still.minds waiting mine).resolve_left id
      exact .untried (still.answer among unattempted_lasts minds answer)
    | drift cell drifted => exact .untried (still.drift drifted)
  | @underway task early rest name found resume passing known even still resumes =>
    cases step with
    | call other admitted =>
      -- While the pass is under way only a load could begin another, and none is admitted.
      refine .underway (Service.Course.mem_halt passing) known even
        (still.call attempt_lasts ?_ admitted.native) resumes
      rintro ⟨view, _, _, own, _⟩
      exact admitted.apart view own _ passing name rfl
    | @answer front back waiting answer among =>
      have mine : waiting ∈ course.pending := by simp [among]
      rcases still.minds waiting mine with rfl | minds
      · exact .resume among known even still resumes answer
      · -- Another question is answered: the one of the pass stays open.
        refine .underway (Service.Course.mem_halt ?_) known even
          (still.answer among attempt_lasts minds answer) resumes
        have elsewhere := passing
        rw [among] at elsewhere
        rcases List.mem_append.mp elsewhere with early | late
        · exact List.mem_append_left _ early
        · rcases List.mem_cons.mp late with same | late
          · exact absurd rfl (same ▸ minds.1 name)
          · exact List.mem_append_right _ late
    | drift cell drifted => exact .underway passing known even (still.drift drifted) resumes

end Steps

/-! ## From the creation of a heap on -/

/-- Whatever slots hold they held at the beginning, unless the engine was told to install
code. -/
def Sourced (heap : Heap) (past : Past heap.image) (state : State) : Prop :=
  ∀ codeId code, state.Holds codeId code →
    heap.state.Holds codeId code ∨ ∃ moment ∈ past, Installing moment

theorem Sourced.note {past : Past heap.image} {state : State} (sourced : Sourced heap past state)
    (moment : (service heap.image).Moment) : Sourced heap (moment :: past) state := by
  refine fun codeId code holds => (sourced codeId code holds).imp_right ?_
  exact fun ⟨other, among, installing⟩ => ⟨other, List.mem_cons_of_mem _ among, installing⟩

theorem sourced_preserved : (customs heap.image State.Grows).Preserves (fun _ => True)
    fun past cell => cell.state.Orderly ∧ Sourced heap past cell.state where
  changed _ held change := by
    rcases change with same | change
    · rwa [same]
    · exact ⟨held.1.touches change.touches, fun codeId code holds =>
        held.2 codeId code (change.touches.inherits held.1 holds)⟩
  asked _ held asked := by
    refine ⟨held.1.ask asked, ?_⟩
    rcases asked.touches with ⟨touches, -⟩ | ⟨other, rfl, -⟩
    · have sourced : Sourced heap _ _ := fun codeId code holds =>
        held.2 codeId code (touches.inherits held.1 holds)
      exact sourced.note _
    · exact fun _ _ _ => .inr ⟨_, List.mem_cons_self, _, _, rfl⟩
  called _ held := ⟨held.1, held.2.note _⟩
  answered _ held := ⟨held.1, held.2.note _⟩
  replied _ held _ := ⟨held.1, held.2.note _⟩
  drifted held drifted := by rwa [drifted]

section Created

variable {library : Library} {journal : Journal} {course : (service heap.image).Course}

/-- Nobody has looked for the routines of a new heap. -/
theorem created_untried (created : ((Heap.create library).run journal).1 = .ok heap) :
    heap.state.gate = .untried := by
  obtain ⟨stubs, -, settled⟩ := create_ok.mp created
  obtain ⟨settles, -⟩ := settleAll_settles (fun _ member => member) initial_pristine settled
  rw [settles.reslotted]
  rfl

theorem Reaches.standing (created : ((Heap.create library).run journal).1 = .ok heap)
    (reached : Reaches heap Separate course) : Standing course := by
  obtain ⟨counters, entries, reached⟩ := reached
  induction reached with
  | refl =>
    exact .untried
      { seen := created_untried created
        minds := fun _ among => (List.not_mem_nil among).elim
        one := .nil
        past := fun _ among => (List.not_mem_nil among).elim
        installed := fun _ among => (List.not_mem_nil among).elim }
  | tail _ step ih => exact ih.step step

theorem Reaches.sourced (created : ((Heap.create library).run journal).1 = .ok heap)
    (reached : Reaches heap Separate course) : Sourced heap course.past course.state.state := by
  obtain ⟨counters, entries, reached⟩ := reached
  have orderly : heap.state.Orderly := fun codeId slot found =>
    (created_pristine created codeId slot found).orderly
  exact (Service.Reaches.holding (customs_kept fun _ => True) sourced_preserved.sustains
    (fun _ _ _ => trivial) ⟨orderly, fun _ _ holds => .inl holds⟩ reached).2

end Created

/-! ## What can be relied on -/

section Standings

variable (standing : Standing course)
include standing

theorem Standing.once : course.past.Pairwise fun late early => ¬(Begins late ∧ Begins early) := by
  cases standing with
  | untried still =>
    exact List.pairwise_of_forall_mem_list fun late among _ _ both =>
      (still.past late among).idle both.1
  | underway _ _ _ still _ => exact still.past.once
  | linked _ _ still => exact still.past.once
  | closed _ still => exact still.past.once

/-- The engine is asked in the pass only, for one name of the library after the other. -/
theorem Standing.inOrder : inquiries course.past = [] ∨ ∃ names, ∃ opening ∈ course.past,
    image.library.routines = .ok names ∧ inquiries course.past <+: names ∧ Begins opening ∧
    ∀ moment ∈ course.past, ∀ task name,
      moment.event = .asked task (.engine (.findRoutine name)) → task = opening.event.call := by
  have ordered {task : Task} {names asked : List String} {answers : List (String × Option Nat)}
      (attempt : Attempt task asked answers course.past)
      (known : image.library.routines = .ok names) (early : asked <+: names) :
      ∃ names, ∃ opening ∈ course.past, image.library.routines = .ok names ∧
        inquiries course.past <+: names ∧ Begins opening ∧ ∀ moment ∈ course.past, ∀ task name,
          moment.event = .asked task (.engine (.findRoutine name)) → task = opening.event.call := by
    obtain ⟨opening, among, begins, rfl⟩ := attempt.begun
    exact ⟨names, opening, among, known, attempt.asked ▸ early, begins, attempt.own⟩
  cases standing with
  | untried still => exact .inl still.past.silent.1
  | @underway task early rest name _ _ _ known _ still _ =>
    exact .inr (ordered still.past known ⟨rest, by simp⟩)
  | linked known _ still => exact .inr (ordered still.past known List.prefix_rfl)
  | closed known still =>
    rcases known with none | ⟨names, known, early⟩
    · exact .inl (still.past.asked.trans none)
    · exact .inr (ordered still.past known early)

/-- A heap whose routines are linked has been through the whole pass. -/
theorem Standing.through (linked : course.state.state.routines.isSome) :
    ∃ (task : Task) (names : List String) (addresses : List Nat),
      image.library.routines = .ok names ∧ addresses.length = names.length ∧
      Still (.linked addresses) (fun _ => False)
        (Attempt task names (names.zip (addresses.map some))) course := by
  have other {gate : Gate} (none : gate.routines = none) (seen : course.state.state.gate = gate) :
      False := by
    have same : course.state.state.routines = gate.routines := congrArg Gate.routines seen
    simp [same, none] at linked
  cases standing with
  | untried still => exact (other rfl still.seen).elim
  | underway _ _ _ still _ => exact (other rfl still.seen).elim
  | linked known even still => exact ⟨_, _, _, known, even, still⟩
  | closed _ still => exact (other rfl still.seen).elim

/-- A heap that is unusable for linking was left so by a pass. -/
theorem Standing.unusable (disabled : course.state.state.linkageDisabled = true) :
    Still .closed (fun _ => False) (fun _ => True) course := by
  have other {gate : Gate} (enabled : gate.disabled = false)
      (seen : course.state.state.gate = gate) : False := by
    have same : course.state.state.linkageDisabled = gate.disabled := congrArg Gate.disabled seen
    simp [same, enabled] at disabled
  cases standing with
  | untried still => exact (other rfl still.seen).elim
  | underway _ _ _ still _ => exact (other rfl still.seen).elim
  | linked _ _ still => exact (other rfl still.seen).elim
  | closed _ still => exact ⟨still.seen, still.minds, still.one, trivial, still.installed⟩

/-- Nothing is installed but behind the gate. -/
theorem Standing.behind {moment : (service image).Moment} (among : moment ∈ course.past)
    (installing : Installing moment) : course.state.state.routines.isSome := by
  have known {gate : Gate} {excepted : (service image).Pending → Prop} {holds : Past image → Prop}
      (still : Still gate excepted holds course) : course.state.state.routines.isSome := by
    have same : course.state.state.routines = gate.routines := congrArg Gate.routines still.seen
    rw [same]
    exact still.installed moment among installing
  cases standing with
  | untried still => exact known still
  | underway _ _ _ still _ => exact known still
  | linked _ _ still => exact known still
  | closed _ still => exact known still

end Standings

/-- Of names with their answers, the answer at a place. -/
theorem answered_at {names : List String} {addresses : List Nat}
    (even : addresses.length = names.length) (index : Nat) :
    (names.zip (addresses.map some))[index]?.bind Prod.snd = addresses[index]? := by
  induction names generalizing addresses index with
  | nil => simp [List.length_eq_zero_iff.mp even]
  | cons name rest ih =>
    cases addresses with
    | nil => cases even
    | cons address others =>
      cases index with
      | zero => rfl
      | succ index => exact ih (Nat.succ.inj even) index

/-- What can be relied on about the routines of the engine, from a moment of a course on. -/
structure RoutineGate (heap : Heap) (course : (service heap.image).Course) : Prop where
  /-- At most one pass over the routines has begun. -/
  once : course.past.Pairwise fun late early => ¬(Begins late ∧ Begins early)
  /-- The engine is asked in that pass only, for one name of the library after the other. -/
  inOrder : inquiries course.past = [] ∨ ∃ names, ∃ opening ∈ course.past,
    heap.image.library.routines = .ok names ∧ inquiries course.past <+: names ∧ Begins opening ∧
    ∀ moment ∈ course.past, ∀ task name,
      moment.event = .asked task (.engine (.findRoutine name)) → task = opening.event.call
  exclusive : ¬(course.state.state.routines.isSome ∧ course.state.state.linkageDisabled)
  /-- Whatever a slot holds is a stub that was there from the beginning, unless the routines
  are linked. -/
  holding : ∀ codeId code, course.state.state.Holds codeId code →
    code.isStub ∧ heap.state.Holds codeId code ∨ course.state.state.routines.isSome
  /-- Linked routines stay linked, each at the address that the engine has answered with. -/
  linked : course.state.state.routines.isSome → ∃ names,
    heap.image.library.routines = .ok names ∧ (findings course.past).map Prod.fst = names ∧
    ∀ later, ReflTransGen (Service.Step Separate) course later →
      later.state.state.routines.isSome ∧
      ∀ index, later.state.state.routineAddress index = (findings course.past)[index]?.bind Prod.snd
  /-- An unusable heap stays unusable, and loading a class does nothing to it. -/
  disabled : course.state.state.linkageDisabled →
    ∀ later, ReflTransGen (Service.Step Separate) course later →
      later.state.state.linkageDisabled ∧
      ∀ view, (Task.call (.loadClass view)).perform heap.image later.state =
        .done (.error .linkageDisabled) later.state

section Created

variable {library : Library} {journal : Journal} {course : (service heap.image).Course}

/-- The routines of the engine are linked all together and once, or never. -/
theorem routines_gate (created : ((Heap.create library).run journal).1 = .ok heap)
    (reached : Reaches heap Separate course) : RoutineGate heap course := by
  have standing := reached.standing created
  refine
    { once := standing.once
      inOrder := standing.inOrder
      exclusive := ?_
      holding := ?_
      linked := ?_
      disabled := ?_ }
  · rintro ⟨linked, disabled⟩
    have closed : course.state.state.routines = none :=
      congrArg Gate.routines (standing.unusable disabled).seen
    simp [closed] at linked
  · intro codeId code holds
    rcases reached.sourced created codeId code holds with initial | ⟨moment, among, installing⟩
    · obtain ⟨slot, found, held⟩ := initial
      exact .inl ⟨((created_pristine created codeId slot found).stub code held).2.1, slot, found, held⟩
    · exact .inr (standing.behind among installing)
  · intro linked
    obtain ⟨task, names, addresses, known, even, still⟩ := standing.through linked
    refine ⟨names, known, ?_, fun later onward => ?_⟩
    · rw [still.past.answers]
      exact List.map_fst_zip (by simp [even])
    · have same : later.state.state.routines = some addresses :=
        congrArg Gate.routines (still.steps attempt_lasts nofun onward).seen
      refine ⟨by simp [same], fun index => ?_⟩
      rw [still.past.answers, State.routineAddress, same]
      exact (answered_at even index).symm
  · intro disabled later onward
    have closed : later.state.state.linkageDisabled = true := congrArg Gate.disabled
      ((standing.unusable disabled).steps (fun _ _ _ _ => trivial) nofun onward).seen
    refine ⟨closed, fun view => ?_⟩
    simp only [Task.perform, Heap.perform, Operation.lift, Action.answeredBy,
      loadClass_disabled closed]
    rfl

/-- One class with one method, whose code calls a routine of the engine. -/
def calling : List Blob.Edit :=
  single ++ [.addRoutine "r"]

/-- An engine that has this method and this routine. -/
def hosting : (question : Question) → question.Answer
  | .engine (.findRoutine _) => some 4096
  | other => lavish other

/-- The heap after the class of the sample was loaded. -/
def hosted (heap : Heap) : Cell :=
  Service.carryOut hosting (service heap.image) [.call (.loadClass sampleView)]
    { state := heap.state }

set_option maxRecDepth 1000000 in
theorem calling_linked : (built? calling).any (fun built =>
    (hosted built.2).state.routineAddress 0 = some 4096 && sampleRuns (hosted built.2)) = true := by
  decide +kernel

theorem routines_gate_calling : ∃ (library : Library) (heap : Heap)
    (course : (service heap.image).Course),
    ((Library.load (Blob.Draft.describe {} "1" calling).assemble "lib" 0
      { verifyChecksum := false }).run []).1 = .ok library ∧
    ((Heap.create library).run []).1 = .ok heap ∧ Reaches heap Separate course ∧
    course.state.state.routineAddress 0 = some 4096 ∧ sampleRuns course.state = true ∧
    RoutineGate heap course := by
  obtain ⟨⟨library, heap⟩, built, both⟩ := (Option.any_eq_true _ _).mp calling_linked
  obtain ⟨loaded, created⟩ := built_some built
  obtain ⟨address, runs⟩ := Bool.and_eq_true_iff.mp both
  let start : (service heap.image).Course := { state := { state := heap.state } }
  obtain ⟨course, onward, -, state⟩ : ∃ course,
      ReflTransGen (Service.Step Separate) start course ∧ course.pending = [] ∧
      course.state = hosted heap := by
    refine start.carries_out hosting _ rfl fun task among other idle => ?_
    obtain rfl := List.mem_singleton.mp among
    exact ⟨nofun, fun view _ waiting member => by simp [idle] at member⟩
  have reached : Reaches heap Separate course := ⟨{}, [], onward⟩
  refine ⟨library, heap, course, loaded, created, reached, ?_, ?_, routines_gate created reached⟩
  · rw [state]
    simpa using address
  · rw [state]
    exact runs

end Created

end Precompiled.Heap
