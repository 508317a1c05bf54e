import Precompiled.Proofs.Dialogue.Course
import Precompiled.Proofs.Traps.Action

/-! Services whose calls may trap. If every call keeps pace with one that has no partial
expressions, and begins while a property of the state holds, then so do whole courses, in
which calls are begun while others wait and the state drifts in between: no call traps, at
no halt, and what was asked, answered and replied is the same. -/
namespace Precompiled

open Relation (ReflTransGen)

variable {S : Signature} {σ : Type}

namespace Service

/-- The service with calls that may trap. -/
def guarded (service : Service S σ) (perform : (call : service.Call) → Guarded S σ (service.Reply call)) :
    Service S σ where
  Call := service.Call
  Reply call := Except Trap (service.Reply call)
  perform := perform
  drift := service.drift

variable {service : Service S σ}
  {perform : (call : service.Call) → Guarded S σ (service.Reply call)} {kept : σ → Prop}

/-- A moment of the past in which nothing trapped. -/
def Moment.untrapped (moment : service.Moment) : (service.guarded perform).Moment where
  event :=
    match moment.event with
    | .called call => .called call
    | .asked call request => .asked call request
    | .answered call request answer => .answered call request answer
    | .replied call reply => .replied call (.ok reply)
  state := moment.state

/-- Two calls that wait for an answer to the same question and keep pace from there on. -/
inductive Abreast (kept : σ → Prop) :
    (service.guarded perform).Pending → service.Pending → Prop where
  | wait {call : service.Call} {request : S.Request}
    {resume : S.Answer request → σ → Dialogue S σ (Except Trap (service.Reply call))}
    {plain : S.Answer request → σ → Dialogue S σ (service.Reply call)}
    (resumed : ∀ answer after, kept after →
      Dialogue.Mirrors kept (· = ·) (resume answer after) (plain answer after)) :
    Abreast kept ⟨call, request, resume⟩ ⟨call, request, plain⟩

/-- The courses went the same way, and the first one without a trap. -/
structure Alongside (kept : σ → Prop) (course : (service.guarded perform).Course)
    (plain : service.Course) : Prop where
  state : course.state = plain.state
  held : kept plain.state
  pending : List.Forall₂ (Abreast kept) course.pending plain.pending
  past : course.past = plain.past.map Moment.untrapped

variable {course : (service.guarded perform).Course} {plain : service.Course}

theorem Alongside.note (alongside : Alongside kept course plain) {event : service.Event}
    {told : (service.guarded perform).Event}
    (same : ∀ state, (⟨told, state⟩ : (service.guarded perform).Moment) =
      Moment.untrapped ⟨event, state⟩) :
    Alongside kept (course.note told) (plain.note event) where
  state := alongside.state
  held := alongside.held
  pending := alongside.pending
  past := by
    rw [Course.note, Course.note, List.map_cons, ← same, ← alongside.past, alongside.state]

/-- Two calls that keep pace come to their next halts alongside. -/
theorem Alongside.halt (alongside : Alongside kept course plain) {call : service.Call}
    {dialogue : Dialogue S σ (Except Trap (service.Reply call))}
    {other : Dialogue S σ (service.Reply call)}
    (mirrors : dialogue.Mirrors kept (· = ·) other) :
    Alongside kept (Course.halt course call dialogue) (plain.halt call other) := by
  cases mirrors with
  | done held same =>
    subst same
    refine Alongside.note ?_ fun _ => ?_
    · exact ⟨rfl, held, alongside.pending, alongside.past⟩
    · rfl
  | ask held resumed =>
    refine Alongside.note ?_ fun _ => ?_
    · exact ⟨rfl, held, .cons (.wait resumed) alongside.pending, alongside.past⟩
    · rfl

theorem Alongside.begin (alongside : Alongside kept course plain) (call : service.Call)
    (mirrors : (perform call plain.state).Mirrors kept (· = ·) (service.perform call plain.state)) :
    Alongside kept (Course.begin course call) (plain.begin call) := by
  have noted : Alongside kept (course.note (.called call)) (plain.note (.called call)) :=
    alongside.note fun _ => rfl
  refine noted.halt ?_
  rw [alongside.state]
  exact mirrors

/-- Each step of a course in which nothing trapped is a step of the service without partial
expressions. -/
theorem Alongside.step {admits : (service.guarded perform).Course → service.Call → Prop}
    {own : service.Course → service.Call → Prop} {after : (service.guarded perform).Course}
    (agrees : ∀ {course plain}, Alongside kept course plain → ∀ call, admits course call →
      own plain call ∧
        (perform call plain.state).Mirrors kept (· = ·) (service.perform call plain.state))
    (drifts : ∀ {before after}, kept before → service.drift before after → kept after)
    (alongside : Alongside kept course plain) (step : Step admits course after) :
    ∃ next, Step own plain next ∧ Alongside kept after next := by
  cases step with
  | call call admitted =>
    obtain ⟨allowed, mirrors⟩ := agrees alongside call admitted
    exact ⟨_, @Step.call S σ service own plain call allowed, alongside.begin call mirrors⟩
  | answer waiting answer among =>
    obtain ⟨before, other, rest, split, same, others⟩ := forall₂_middle (among ▸ alongside.pending)
    cases same with
    | wait resumed =>
      refine ⟨_, @Step.answer S σ service own plain before rest _ answer split, ?_⟩
      refine Alongside.halt (Alongside.note ?_ fun _ => ?_) ?_
      · exact ⟨alongside.state, alongside.held, others, alongside.past⟩
      · rfl
      · rw [alongside.state]
        exact resumed answer _ alongside.held
  | drift state drifted =>
    rw [alongside.state] at drifted
    exact ⟨_, .drift state drifted, rfl, drifts alongside.held drifted, alongside.pending,
      alongside.past⟩

/-- A course of calls that may trap goes the way of a course without partial expressions. -/
theorem Alongside.reaches {admits : (service.guarded perform).Course → service.Call → Prop}
    {own : service.Course → service.Call → Prop} {start : σ}
    (agrees : ∀ {course plain}, Alongside kept course plain → ∀ call, admits course call →
      own plain call ∧
        (perform call plain.state).Mirrors kept (· = ·) (service.perform call plain.state))
    (drifts : ∀ {before after}, kept before → service.drift before after → kept after)
    (begins : kept start) (reached : Reaches admits start course) :
    ∃ plain, Reaches own start plain ∧ Alongside kept course plain := by
  induction reached with
  | refl => exact ⟨{ state := start }, .refl, rfl, begins, .nil, rfl⟩
  | tail _ step ih =>
    obtain ⟨plain, before, alongside⟩ := ih
    obtain ⟨next, onward, kept⟩ := alongside.step agrees drifts step
    exact ⟨next, before.tail onward, kept⟩

/-- No call of such a course replied by a trap. -/
theorem Alongside.reply (alongside : Alongside kept course plain) {call : service.Call}
    {reply : Except Trap (service.Reply call)} {moment : (service.guarded perform).Moment}
    (among : moment ∈ course.past) (replied : moment.event = .replied call reply) :
    ∃ value, reply = .ok value ∧ ⟨.replied call value, moment.state⟩ ∈ plain.past := by
  rw [alongside.past] at among
  obtain ⟨⟨event, state⟩, source, rfl⟩ := List.mem_map.mp among
  cases event with
  | replied other value =>
    cases replied
    exact ⟨value, rfl, source⟩
  | called | asked | answered => cases replied

end Service

end Precompiled
