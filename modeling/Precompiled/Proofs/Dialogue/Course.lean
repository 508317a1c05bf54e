import Mathlib.Data.List.Forall2
import Precompiled.Proofs.Dialogue.Conduct

/-! The courses that the work of a service can take. Calls are begun while
questions of earlier ones are open, and open questions are answered in any order;
calls that nest, because the partner calls back before it answers, are a special
case. Every halt of a call is a moment of the past, which is kept with the state
the call left behind. -/
namespace Precompiled

open Relation (ReflTransGen)

/-- The end of a dialogue in which every question gets the answer given
beforehand. -/
def Dialogue.conclude {S : Signature} {σ α : Type}
    (answers : (request : S.Request) → S.Answer request) : Dialogue S σ α → α × σ
  | .done result state => (result, state)
  | .ask request state resume => (resume (answers request) state).conclude answers

theorem Dialogue.conclude_bind {S : Signature} {σ α β : Type}
    (answers : (request : S.Request) → S.Answer request) (dialogue : Dialogue S σ α)
    (next : α → σ → Dialogue S σ β) : (dialogue.bind next).conclude answers =
      (next (dialogue.conclude answers).1 (dialogue.conclude answers).2).conclude answers := by
  induction dialogue with
  | done result state => rfl
  | ask request state resume ih => exact ih _ _

/-- Where every question leads to one that is answered the same way, the same comes of it. -/
theorem Dialogue.conclude_answeredBy {S T : Signature} {σ α : Type}
    {respond : (request : S.Request) → Action T σ (S.Answer request)}
    {answers : (request : T.Request) → T.Answer request}
    {given : (request : S.Request) → S.Answer request}
    (told : ∀ request state, (respond request state).conclude answers = (given request, state))
    (dialogue : Dialogue S σ α) :
    (dialogue.answeredBy respond).conclude answers = dialogue.conclude given := by
  induction dialogue with
  | done result state => rfl
  | ask request state resume ih =>
    rw [Dialogue.answeredBy, Dialogue.conclude_bind, told]
    exact ih _ _

/-- Calls that share a state and can be begun at any time. -/
structure Service (S : Signature) (σ : Type) where
  Call : Type
  Reply : Call → Type
  perform : (call : Call) → Action S σ (Reply call)
  /-- What the surroundings may do to the state on their own. -/
  drift : σ → σ → Prop

namespace Service

variable {S : Signature} {σ : Type} (service : Service S σ)

inductive Event where
  | called (call : service.Call)
  | asked (call : service.Call) (request : S.Request)
  | answered (call : service.Call) (request : S.Request) (answer : S.Answer request)
  | replied (call : service.Call) (reply : service.Reply call)

/-- The call that an event belongs to. -/
def Event.call {service : Service S σ} : service.Event → service.Call
  | .called call | .asked call _ | .answered call _ _ | .replied call _ => call

/-- An event and the state right after it. -/
structure Moment where
  event : service.Event
  state : σ

/-- A call that waits for an answer. -/
structure Pending where
  call : service.Call
  request : S.Request
  resume : S.Answer request → σ → Dialogue S σ (service.Reply call)

structure Course where
  state : σ
  pending : List service.Pending := []
  /-- What happened so far, the latest first. -/
  past : List service.Moment := []

variable {service}

/-- The answers given in the past. -/
def heard (past : List service.Moment) : S.Heard := fun request answer =>
  ∃ moment ∈ past, ∃ call, moment.event = .answered call request answer

namespace Course

/-- The course after an event that does not change the state. -/
def note (course : service.Course) (event : service.Event) : service.Course :=
  { course with past := ⟨event, course.state⟩ :: course.past }

/-- The course after a call came to its next halt. -/
def halt (course : service.Course) (call : service.Call) :
    Dialogue S σ (service.Reply call) → service.Course
  | .done reply state => { course with state }.note (.replied call reply)
  | .ask request state resume =>
    { course with state, pending := ⟨call, request, resume⟩ :: course.pending }.note
      (.asked call request)

/-- The course after a call was begun and came to its first halt. -/
def begin (course : service.Course) (call : service.Call) : service.Course :=
  (course.note (.called call)).halt call (service.perform call course.state)

/-- The course after a question was answered and its call came to its next
halt. -/
def resume (course : service.Course) (waiting : service.Pending)
    (answer : S.Answer waiting.request) : service.Course :=
  (course.note (.answered waiting.call waiting.request answer)).halt waiting.call
    (waiting.resume answer course.state)

end Course

/-- One step of a course in which calls are begun as `admits` allows. -/
inductive Step (admits : service.Course → service.Call → Prop) :
    service.Course → service.Course → Prop where
  | call {course : service.Course} (call : service.Call) (admitted : admits course call) :
    Step admits course (course.begin call)
  | answer {course : service.Course} {front back : List service.Pending}
      (waiting : service.Pending) (answer : S.Answer waiting.request)
      (among : course.pending = front ++ waiting :: back) :
    Step admits course (Course.resume { course with pending := front ++ back } waiting answer)
  | drift {course : service.Course} (state : σ) (drifted : service.drift course.state state) :
    Step admits course { course with state }

/-- The courses that begin in a state. -/
def Reaches (admits : service.Course → service.Call → Prop) (start : σ) :
    service.Course → Prop :=
  ReflTransGen (Step admits) { state := start }

/-- More courses are possible where more calls may begin. -/
theorem steps_widen {admits other : service.Course → service.Call → Prop}
    (implies : ∀ course call, admits course call → other course call)
    {before after : service.Course} (onward : ReflTransGen (Step admits) before after) :
    ReflTransGen (Step other) before after := by
  refine ReflTransGen.mono (fun first second step => ?_) _ _ onward
  cases step with
  | call call admitted => exact .call call (implies _ call admitted)
  | answer waiting answer among => exact .answer waiting answer among
  | drift state drifted => exact .drift state drifted

/-- How the calls of a service behave: the conduct of each call, and what
everybody puts up with. -/
structure Customs (service : Service S σ) where
  change : service.Call → S.Heard → σ → σ → Prop
  question : service.Call → S.Heard → S.Request → σ → σ → Prop
  rely : σ → σ → Prop
  /-- What is known when a call replies. -/
  reply : (call : service.Call) → S.Heard → service.Reply call → σ → Prop

namespace Customs

variable (customs : service.Customs)

def conduct (call : service.Call) : Conduct S σ where
  change := customs.change call
  question := customs.question call
  rely := customs.rely

/-- What any of the calls in `allowed` does, and what happens on its own, is something
that the others put up with. -/
structure Borne (allowed : service.Call → Prop) : Prop where
  steady : ∀ state, customs.rely state state
  lasting : ∀ {first second third}, customs.rely first second → customs.rely second third →
    customs.rely first third
  changed : ∀ {call heard before after}, allowed call →
    customs.change call heard before after → customs.rely before after
  asked : ∀ {call heard request before after}, allowed call →
    customs.question call heard request before after → customs.rely before after
  drifted : ∀ {before after}, service.drift before after → customs.rely before after

/-- The calls in `allowed` keep to the customs, wherever they begin. -/
structure Kept (allowed : service.Call → Prop) : Prop extends customs.Borne allowed where
  performed : ∀ call, allowed call →
    (service.perform call).Obeys (customs.conduct call) (customs.reply call)

/-- The calls that may begin are in `allowed`, and keep to the customs where they do. -/
def Begins (admits : service.Course → service.Call → Prop) (allowed : service.Call → Prop)
    (holds : List service.Moment → σ → Prop) : Prop :=
  ∀ course call, holds course.past course.state → admits course call →
    allowed call ∧ ∀ heard, (service.perform call course.state).Obeys (customs.conduct call)
      (customs.reply call) heard course.state

/-- A property of the past and the state that everything in keeping with the
customs preserves. -/
structure Preserves (allowed : service.Call → Prop)
    (holds : List service.Moment → σ → Prop) : Prop where
  changed : ∀ {call past before after}, allowed call → holds past before →
    customs.change call (heard past) before after → holds past after
  asked : ∀ {call past request before after}, allowed call → holds past before →
    customs.question call (heard past) request before after →
    holds (⟨.asked call request, after⟩ :: past) after
  called : ∀ {call past state}, allowed call → holds past state →
    holds (⟨.called call, state⟩ :: past) state
  answered : ∀ {call past request answer state}, allowed call → holds past state →
    holds (⟨.answered call request answer, state⟩ :: past) state
  replied : ∀ {call past reply state}, allowed call → holds past state →
    customs.reply call (heard past) reply state →
    holds (⟨.replied call reply, state⟩ :: past) state
  drifted : ∀ {past before after}, holds past before → service.drift before after →
    holds past after

/-- A property of the past and the state that may be lost while a call is at work, but
holds again at its halt. -/
structure Sustains (allowed : service.Call → Prop)
    (holds : List service.Moment → σ → Prop) : Prop where
  asked : ∀ {call past request before middle after}, allowed call → holds past before →
    ReflTransGen (customs.change call (heard past)) before middle →
    customs.question call (heard past) request middle after →
    holds (⟨.asked call request, after⟩ :: past) after
  replied : ∀ {call past reply before after}, allowed call → holds past before →
    ReflTransGen (customs.change call (heard past)) before after →
    customs.reply call (heard past) reply after →
    holds (⟨.replied call reply, after⟩ :: past) after
  called : ∀ {call past state}, allowed call → holds past state →
    holds (⟨.called call, state⟩ :: past) state
  answered : ∀ {call past request answer state}, allowed call → holds past state →
    holds (⟨.answered call request answer, state⟩ :: past) state
  drifted : ∀ {past before after}, holds past before → service.drift before after →
    holds past after

end Customs

theorem heard_grows (moment : service.Moment) (past : List service.Moment) :
    heard past ≤ heard (moment :: past) := by
  rintro request answer ⟨earlier, among, call, said⟩
  exact ⟨earlier, by simp [among], call, said⟩

/-- The halt of a call enters the past. -/
theorem Course.halt_past (course : service.Course) (call : service.Call)
    (dialogue : Dialogue S σ (service.Reply call)) :
    ∃ event : service.Event, event.call = call ∧ (course.halt call dialogue).past =
      ⟨event, (course.halt call dialogue).state⟩ :: course.past := by
  cases dialogue with
  | done reply state => exact ⟨.replied call reply, rfl, rfl⟩
  | ask request state resume => exact ⟨.asked call request, rfl, rfl⟩

/-- What was open before a call came to its halt is open afterwards. -/
theorem Course.mem_halt {course : service.Course} {call : service.Call}
    {dialogue : Dialogue S σ (service.Reply call)} {waiting : service.Pending}
    (among : waiting ∈ course.pending) : waiting ∈ (course.halt call dialogue).pending := by
  cases dialogue with
  | done reply state => exact among
  | ask request state resume => exact List.mem_cons_of_mem _ among

/-- The beginning of a call enters the past. -/
theorem Course.begin_past (course : service.Course) (call : service.Call) :
    ∃ event : service.Event, event.call = call ∧ (course.begin call).past =
      [⟨event, (course.begin call).state⟩, ⟨.called call, course.state⟩] ++ course.past :=
  Course.halt_past (course.note (.called call)) call _

theorem Course.resume_past (course : service.Course) (waiting : service.Pending)
    (answer : S.Answer waiting.request) :
    ∃ event : service.Event, event.call = waiting.call ∧ (course.resume waiting answer).past =
      [⟨event, (course.resume waiting answer).state⟩,
        ⟨.answered waiting.call waiting.request answer, course.state⟩] ++ course.past :=
  Course.halt_past (course.note (.answered waiting.call waiting.request answer)) waiting.call _

/-- What is pending beside one call is pending. -/
theorem mem_rest {front back pending : List service.Pending} {waiting other : service.Pending}
    (among : pending = front ++ waiting :: back) (member : other ∈ front ++ back) :
    other ∈ pending := by
  rw [among]
  rcases List.mem_append.mp member with early | late
  · exact List.mem_append_left _ early
  · exact List.mem_append_right _ (List.mem_cons_of_mem _ late)

/-- Where one list is paired with another, an item of the first is paired with one of the
second at the same place. -/
theorem forall₂_middle {α β : Type} {paired : α → β → Prop} {front back : List α} {item : α}
    {others : List β} (pairs : List.Forall₂ paired (front ++ item :: back) others) :
    ∃ before other after, others = before ++ other :: after ∧ paired item other ∧
      List.Forall₂ paired (front ++ back) (before ++ after) := by
  induction front generalizing others with
  | nil =>
    cases pairs with
    | cons first rest => exact ⟨[], _, _, rfl, first, rest⟩
  | cons head front ih =>
    cases pairs with
    | cons first rest =>
      obtain ⟨before, other, after, rfl, same, onward⟩ := ih rest
      exact ⟨_ :: before, other, after, rfl, same, .cons first onward⟩

theorem heard_answer (call : service.Call) (request : S.Request) (answer : S.Answer request)
    (state : σ) (past : List service.Moment) :
    heard (⟨.answered call request answer, state⟩ :: past) request answer :=
  ⟨_, List.mem_cons_self, call, rfl⟩

section Runs

variable {customs : service.Customs} {allowed : service.Call → Prop}
  {holds : List service.Moment → σ → Prop}

/-- An open question whose call will go on to keep to the customs, whatever
happens until the answer. -/
def Pending.Ready (customs : service.Customs) (past : List service.Moment) (state : σ)
    (waiting : service.Pending) : Prop :=
  ∀ later answer after, heard past ≤ later → later waiting.request answer →
    customs.rely state after →
    (waiting.resume answer after).Obeys (customs.conduct waiting.call)
      (customs.reply waiting.call) later after

/-- What a course in keeping with the customs satisfies at every step. -/
structure Sound (customs : service.Customs) (allowed : service.Call → Prop)
    (holds : List service.Moment → σ → Prop) (course : service.Course) : Prop where
  holding : holds course.past course.state
  allowed : ∀ waiting ∈ course.pending, allowed waiting.call
  ready : ∀ waiting ∈ course.pending, waiting.Ready customs course.past course.state

/-- Readiness lasts. -/
theorem Pending.Ready.later {waiting : service.Pending} {past : List service.Moment} {state : σ}
    (ready : waiting.Ready customs past state) (borne : customs.Borne allowed)
    {onward : List service.Moment} {after : σ} (more : heard past ≤ heard onward)
    (rely : customs.rely state after) : waiting.Ready customs onward after :=
  fun later answer last further told onwards =>
    ready later answer last (more.trans further) told (borne.lasting rely onwards)

/-- Changes in a row preserve what each of them does. -/
theorem Customs.Preserves.changes (preserves : customs.Preserves allowed holds)
    {call : service.Call} (permitted : allowed call) {past : List service.Moment} {before after : σ}
    (held : holds past before)
    (changes : ReflTransGen (customs.change call (heard past)) before after) :
    holds past after := by
  induction changes with
  | refl => exact held
  | tail _ change ih => exact preserves.changed permitted ih change

/-- What every change preserves holds at every halt. -/
theorem Customs.Preserves.sustains (preserves : customs.Preserves allowed holds) :
    customs.Sustains allowed holds where
  asked permitted held changes asked :=
    preserves.asked permitted (preserves.changes permitted held changes) asked
  replied permitted held changes known :=
    preserves.replied permitted (preserves.changes permitted held changes) known
  called := preserves.called
  answered := preserves.answered
  drifted := preserves.drifted

theorem Customs.Borne.changes (borne : customs.Borne allowed) {call : service.Call}
    (permitted : allowed call) {known : S.Heard} {before after : σ}
    (changes : ReflTransGen (customs.change call known) before after) :
    customs.rely before after := by
  induction changes with
  | refl => exact borne.steady before
  | tail _ change ih => exact borne.lasting ih (borne.changed permitted change)

/-- A call that keeps to the customs leaves the course sound at its halt. -/
theorem Sound.halt (borne : customs.Borne allowed) (sustains : customs.Sustains allowed holds)
    {course : service.Course} (sound : Sound customs allowed holds course) {call : service.Call}
    (permitted : allowed call) {dialogue : Dialogue S σ (service.Reply call)}
    (obeys : dialogue.Obeys (customs.conduct call) (customs.reply call) (heard course.past)
      course.state) :
    Sound customs allowed holds (course.halt call dialogue) := by
  cases dialogue with
  | done reply state =>
    obtain ⟨changes, known⟩ := obeys
    have grown := borne.changes permitted changes
    exact
      { holding := sustains.replied permitted sound.holding changes known
        allowed := sound.allowed
        ready := fun waiting among =>
          (sound.ready waiting among).later borne (heard_grows _ _) grown }
  | ask request state resume =>
    obtain ⟨⟨middle, changes, asked⟩, resumed⟩ := obeys
    have grown := borne.lasting (borne.changes permitted changes) (borne.asked permitted asked)
    refine
      { holding := sustains.asked permitted sound.holding changes asked
        allowed := ?_
        ready := ?_ }
    · intro waiting among
      cases among with
      | head => exact permitted
      | tail _ among => exact sound.allowed waiting among
    · intro waiting among
      cases among with
      | head =>
        exact fun later answer after more told onward =>
          resumed later answer after ((heard_grows _ _).trans more) told onward
      | tail _ among => exact (sound.ready waiting among).later borne (heard_grows _ _) grown

variable {admits : service.Course → service.Call → Prop}

theorem Sound.step (borne : customs.Borne allowed) (sustains : customs.Sustains allowed holds)
    (begins : customs.Begins admits allowed holds)
    {before after : service.Course} (step : Step admits before after)
    (sound : Sound customs allowed holds before) : Sound customs allowed holds after := by
  cases step with
  | call call begun =>
    obtain ⟨permitted, performed⟩ := begins _ call sound.holding begun
    refine Sound.halt borne sustains ?_ permitted (performed _)
    exact
      { holding := sustains.called permitted sound.holding
        allowed := sound.allowed
        ready := fun waiting among =>
          (sound.ready waiting among).later borne (heard_grows _ _) (borne.steady _) }
  | @answer front back waiting answer among =>
    have mine : waiting ∈ before.pending := by simp [among]
    have others : ∀ other ∈ front ++ back, other ∈ before.pending :=
      fun other member => mem_rest among member
    have permitted := sound.allowed waiting mine
    refine Sound.halt borne sustains ?_ permitted ?_
    · exact
        { holding := sustains.answered permitted sound.holding
          allowed := fun other member => sound.allowed other (others other member)
          ready := fun other member =>
            (sound.ready other (others other member)).later borne (heard_grows _ _)
              (borne.steady _) }
    · exact sound.ready waiting mine _ answer _ (heard_grows _ _) (heard_answer _ _ _ _ _)
        (borne.steady _)
  | drift state drifted =>
    exact
      { holding := sustains.drifted sound.holding drifted
        allowed := sound.allowed
        ready := fun waiting among =>
          (sound.ready waiting among).later borne le_rfl (borne.drifted drifted) }

theorem Sound.steps (borne : customs.Borne allowed) (sustains : customs.Sustains allowed holds)
    (begins : customs.Begins admits allowed holds)
    {before after : service.Course} (sound : Sound customs allowed holds before)
    (onward : ReflTransGen (Step admits) before after) : Sound customs allowed holds after := by
  induction onward with
  | refl => exact sound
  | tail _ step ih => exact ih.step borne sustains begins step

/-- What has to hold may be chosen anew at any moment. -/
theorem Sound.rebase {other : List service.Moment → σ → Prop} {course : service.Course}
    (sound : Sound customs allowed holds course) (holding : other course.past course.state) :
    Sound customs allowed other course :=
  ⟨holding, sound.allowed, sound.ready⟩

/-- Every course whose calls begin in keeping with the customs is sound. What holds may be
used to see that they do. -/
theorem Reaches.sound (borne : customs.Borne allowed) (sustains : customs.Sustains allowed holds)
    (begins : customs.Begins admits allowed holds) {start : σ} (initial : holds [] start)
    {course : service.Course} (reached : Reaches admits start course) :
    Sound customs allowed holds course := by
  refine Sound.steps borne sustains begins ?_ reached
  exact ⟨initial, fun _ among => (List.not_mem_nil among).elim,
    fun _ among => (List.not_mem_nil among).elim⟩

/-- Calls that keep to the customs wherever they begin have only to be allowed. -/
theorem Customs.Kept.begins (kept : customs.Kept allowed)
    (admitted : ∀ course call, holds course.past course.state → admits course call → allowed call) :
    customs.Begins admits allowed holds := fun course call holding admits =>
  have permitted := admitted course call holding admits
  ⟨permitted, fun heard => kept.performed call permitted heard course.state⟩

/-- What the customs sustain holds throughout every course in keeping with
them. -/
theorem Reaches.holding (kept : customs.Kept allowed) (sustains : customs.Sustains allowed holds)
    (admitted : ∀ course call, admits course call → allowed call) {start : σ}
    (initial : holds [] start) {course : service.Course}
    (reached : Reaches admits start course) : holds course.past course.state :=
  (reached.sound kept.toBorne sustains (kept.begins fun course call _ => admitted course call)
    initial).holding

end Runs

/-! ## Coming to rest -/

section Rest

variable (answers : (request : S.Request) → S.Answer request)
  {admits : service.Course → service.Call → Prop}

/-- A call replies once all its questions are answered, and until then nothing else
need happen. -/
theorem Course.halt_replies (course : service.Course) (call : service.Call)
    (dialogue : Dialogue S σ (service.Reply call)) :
    ∃ later, ReflTransGen (Step admits) (course.halt call dialogue) later ∧
      later.pending = course.pending ∧ later.state = (dialogue.conclude answers).2 := by
  induction dialogue generalizing course with
  | done reply state => exact ⟨_, .refl, rfl, rfl⟩
  | ask request state resume ih =>
    have waits : (course.halt call (.ask request state resume)).pending =
        [] ++ ⟨call, request, resume⟩ :: course.pending := rfl
    have answered : Step admits _ _ := .answer ⟨call, request, resume⟩ (answers request) waits
    obtain ⟨later, onward, same, final⟩ := ih (answers request) state
      (({ course with state }.note (.asked call request)).note
        (.answered call request (answers request)))
    exact ⟨later, .head answered onward, same, final⟩

include answers in
/-- Answers alone bring every course to rest. -/
theorem Course.comes_to_rest (course : service.Course) :
    ∃ later, ReflTransGen (Step admits) course later ∧ later.pending = [] := by
  obtain ⟨pending, same⟩ : ∃ pending, course.pending = pending := ⟨_, rfl⟩
  induction pending generalizing course with
  | nil => exact ⟨course, .refl, same⟩
  | cons waiting rest ih =>
    have waits : course.pending = [] ++ waiting :: rest := same
    have answered : Step admits course _ := .answer waiting (answers waiting.request) waits
    obtain ⟨middle, onward, left, -⟩ :=
      Course.halt_replies answers (Course.note { course with pending := rest } _) waiting.call
        (waiting.resume (answers waiting.request) course.state)
    obtain ⟨later, further, empty⟩ := ih middle left
    exact ⟨later, .head answered (onward.trans further), empty⟩

/-- The state after calls that are carried out one after the other, where every
question gets the answer given beforehand. -/
def carryOut (service : Service S σ) (calls : List service.Call) (state : σ) : σ :=
  calls.foldl (fun state call => ((service.perform call state).conclude answers).2) state

/-- Calls that may begin at rest can be carried out one after the other. -/
theorem Course.carries_out (calls : List service.Call) (course : service.Course)
    (idle : course.pending = [])
    (admitted : ∀ call ∈ calls, ∀ other : service.Course, other.pending = [] → admits other call) :
    ∃ later, ReflTransGen (Step admits) course later ∧ later.pending = [] ∧
      later.state = carryOut answers service calls course.state := by
  induction calls generalizing course with
  | nil => exact ⟨course, .refl, idle, rfl⟩
  | cons call rest ih =>
    have begun : Step admits course (course.begin call) :=
      .call call (admitted call List.mem_cons_self course idle)
    obtain ⟨middle, onward, same, state⟩ :=
      Course.halt_replies answers (course.note (.called call)) call
        (service.perform call course.state)
    obtain ⟨later, further, empty, final⟩ := ih middle (same.trans idle)
      fun other among => admitted other (List.mem_cons_of_mem _ among)
    rw [state] at final
    exact ⟨later, .head begun (onward.trans further), empty, final⟩

/-- The state after a call during whose first question another one is carried out. -/
def nest (service : Service S σ) (outer inner : service.Call) (state : σ) : σ :=
  match service.perform outer state with
  | .done _ after => after
  | .ask request asked resume =>
    let replied := ((service.perform inner asked).conclude answers).2
    ((resume (answers request) replied).conclude answers).2

/-- A call that may always begin can be carried out within another one. -/
theorem Course.nests (course : service.Course) (outer inner : service.Call)
    (idle : course.pending = []) (begins : admits course outer)
    (within : ∀ other : service.Course, admits other inner) :
    ∃ later, ReflTransGen (Step admits) course later ∧ later.pending = [] ∧
      later.state = nest answers service outer inner course.state := by
  have begun : Step admits course (course.begin outer) := .call outer begins
  unfold Course.begin at begun
  unfold nest
  cases dialogue : service.perform outer course.state with
  | done reply state =>
    rw [dialogue] at begun
    exact ⟨_, .single begun, idle, rfl⟩
  | ask request state resume =>
    rw [dialogue] at begun
    let asked := (course.note (.called outer)).halt outer (.ask request state resume)
    have called : Step admits asked (asked.begin inner) := .call inner (within asked)
    obtain ⟨replied, carried, waits, after⟩ := Course.halt_replies answers
      (asked.note (.called inner)) inner (service.perform inner asked.state)
    let waiting : service.Pending := ⟨outer, request, resume⟩
    have among : replied.pending = [] ++ waiting :: course.pending := waits
    have answered : Step admits replied _ := .answer waiting (answers request) among
    obtain ⟨later, onward, rest, final⟩ := Course.halt_replies answers
      (Course.note { replied with pending := course.pending }
        (.answered outer request (answers request)))
      outer (resume (answers request) replied.state)
    refine ⟨later, .head begun (.head called (carried.trans (.head answered onward))), ?_, ?_⟩
    · exact rest.trans idle
    · rw [final, after]
      rfl

end Rest

end Service

end Precompiled
