import Mathlib.Algebra.BigOperators.Group.List.Basic
import Mathlib.Algebra.GroupWithZero.Nat
import Mathlib.Data.List.Forall2
import Precompiled.Proofs.Dialogue.Course
import Precompiled.Proofs.Dialogue.Evaluation

/-! Questions that are paid for by replies. If the questions of every call weigh as much as
its reply is worth, whatever the answers are, then in every course the questions asked weigh
as much as the replies given, except for what the calls under way still owe. -/
namespace Precompiled

variable {S T : Signature} {σ τ α β : Type} {weight : S.Request → Nat} {middle : α → Nat}
  {worth : β → Nat} {paid : Nat}

namespace Dialogue

/-- After questions of the weight `owed`, the dialogue goes on to a result that is worth
all its questions. -/
def Weighs (weight : S.Request → Nat) (worth : α → Nat) : Nat → Dialogue S σ α → Prop
  | owed, .done result _ => worth result = owed
  | owed, .ask request _ resume =>
    ∀ answer after, (resume answer after).Weighs weight worth (owed + weight request)

variable {dialogue : Dialogue S σ α} {owed : Nat}

theorem Weighs.bind {next : α → σ → Dialogue S σ β} (first : dialogue.Weighs weight middle owed)
    (second : ∀ value state, (next value state).Weighs weight worth (middle value)) :
    (dialogue.bind next).Weighs weight worth owed := by
  induction dialogue generalizing owed with
  | done value state => exact (first : middle value = owed) ▸ second value state
  | ask request state resume ih => exact fun answer after => ih answer after (first answer after)

/-- What was asked before is worth as much more. -/
theorem Weighs.shift (weighs : dialogue.Weighs weight middle owed) (more : Nat) :
    dialogue.Weighs weight (fun value => middle value + more) (owed + more) := by
  induction dialogue generalizing owed with
  | done value state => exact congrArg (· + more) weighs
  | ask request state resume ih =>
    intro answer after
    rw [Nat.add_right_comm]
    exact ih answer after (weighs answer after)

/-- If nothing weighs anything, every dialogue is paid for. -/
theorem weighs_nothing (dialogue : Dialogue S σ α) :
    dialogue.Weighs (fun _ => 0) (fun _ => 0) 0 := by
  induction dialogue with
  | done value state => rfl
  | ask request state resume ih => exact ih

/-- Questions may be passed on to somebody else. -/
theorem Weighs.answeredBy {onward : T.Request → Nat}
    {respond : (request : S.Request) → Action T σ (S.Answer request)}
    (passes : ∀ request state, (respond request state).Weighs onward (fun _ => weight request) 0)
    (weighs : dialogue.Weighs weight middle owed) :
    (dialogue.answeredBy respond).Weighs onward middle owed := by
  induction dialogue generalizing owed with
  | done value state => exact weighs
  | ask request state resume ih =>
    have passed := (passes request state).shift owed
    rw [Nat.zero_add] at passed
    refine passed.bind fun answer after => ?_
    rw [Nat.add_comm]
    exact ih answer after (weighs answer after)

theorem Weighs.within {part : Part σ τ} (weighs : dialogue.Weighs weight middle owed) (whole : τ) :
    (dialogue.within part whole).Weighs weight middle owed := by
  induction dialogue generalizing owed whole with
  | done value state => exact weighs
  | ask request state resume ih =>
    exact fun answer after => ih answer _ (weighs answer _) after

end Dialogue

namespace Action

/-- Wherever the action begins, its result is worth its questions and `owed` besides. -/
def Weighs (weight : S.Request → Nat) (worth : α → Nat) (owed : Nat) (action : Action S σ α) : Prop :=
  ∀ state, (action state).Weighs weight worth owed

/-- Questions of the action weigh nothing. -/
abbrev Light (weight : S.Request → Nat) (action : Action S σ α) : Prop :=
  action.Weighs weight (fun _ => 0) 0

variable {action : Action S σ α} {next : α → Action S σ β} {owed : Nat}

theorem Weighs.bind (first : action.Weighs weight middle owed)
    (second : ∀ value, (next value).Weighs weight worth (middle value)) :
    (action >>= next).Weighs weight worth owed :=
  fun state => (first state).bind fun value after => second value after

/-- What weighs nothing may come first. -/
theorem Light.bind (light : action.Light weight)
    (second : ∀ value, (next value).Weighs weight worth owed) :
    (action >>= next).Weighs weight worth owed := by
  intro state
  have first := (light state).shift owed
  simp only [Nat.zero_add] at first
  exact first.bind fun value after => second value after

theorem Weighs.shift (weighs : action.Weighs weight middle owed) (more : Nat) :
    action.Weighs weight (fun value => middle value + more) (owed + more) :=
  fun state => (weighs state).shift more

theorem weighs_pure {value : α} (worthy : middle value = owed) :
    (pure value : Action S σ α).Weighs weight middle owed :=
  fun _ => worthy

theorem light_read (view : σ → α) : (read view : Action S σ α).Light weight :=
  fun _ => rfl

theorem light_update (step : σ → σ) : (update step : Action S σ Unit).Light weight :=
  fun _ => rfl

end Action

namespace Service

variable {service : Service S σ}

/-- The weight of a question that is asked. -/
def Event.cost (weight : service.Call → S.Request → Nat) : service.Event → Nat
  | .asked call request => weight call request
  | _ => 0

/-- The worth of a reply that is given. -/
def Event.payment (worth : (call : service.Call) → service.Reply call → Nat) :
    service.Event → Nat
  | .replied call reply => worth call reply
  | _ => 0

section Balance

variable (weight : service.Call → S.Request → Nat)
  (worth : (call : service.Call) → service.Reply call → Nat)

/-- The weight of all questions of the past. -/
def asked (past : List service.Moment) : Nat :=
  (past.map fun moment => moment.event.cost weight).sum

/-- The worth of all replies of the past. -/
def repaid (past : List service.Moment) : Nat :=
  (past.map fun moment => moment.event.payment worth).sum

/-- An open call will reply for what it has asked so far, and for what it asks yet. -/
def Pending.Owes (waiting : service.Pending) (owed : Nat) : Prop :=
  ∀ answer after,
    (waiting.resume answer after).Weighs (weight waiting.call) (worth waiting.call) owed

/-- The questions asked are paid for by the replies, except for what open calls owe. -/
def Balanced (course : service.Course) : Prop :=
  ∃ debts, List.Forall₂ (Pending.Owes weight worth) course.pending debts ∧
    asked weight course.past = repaid worth course.past + debts.sum

end Balance

variable {weight : service.Call → S.Request → Nat}
  {worth : (call : service.Call) → service.Reply call → Nat}

/-- A call comes to its next halt. What it owes is paid or goes on the books. -/
theorem Balanced.halt (course : service.Course) {call : service.Call} {owed : Nat}
    {debts : List Nat} {dialogue : Dialogue S σ (service.Reply call)}
    (others : List.Forall₂ (Pending.Owes weight worth) course.pending debts)
    (balance : asked weight course.past = repaid worth course.past + (owed + debts.sum))
    (weighs : dialogue.Weighs (weight call) (worth call) owed) :
    Balanced weight worth (course.halt call dialogue) := by
  cases dialogue with
  | done reply state =>
    have due : worth call reply = owed := weighs
    refine ⟨debts, others, ?_⟩
    show 0 + asked weight course.past = worth call reply + repaid worth course.past + debts.sum
    omega
  | ask request state resume =>
    refine ⟨(owed + weight call request) :: debts, .cons weighs others, ?_⟩
    show weight call request + asked weight course.past =
      0 + repaid worth course.past + ((owed + weight call request) :: debts).sum
    rw [List.sum_cons]
    omega

section Steps

variable {admits : service.Course → service.Call → Prop} {before after course : service.Course}

section

variable (performs : ∀ call state,
  (service.perform call state).Weighs (weight call) (worth call) 0)
include performs

theorem Balanced.step (balanced : Balanced weight worth before) (step : Step admits before after) :
    Balanced weight worth after := by
  obtain ⟨debts, others, balance⟩ := balanced
  cases step with
  | call call admitted =>
    refine Balanced.halt (before.note (.called call)) others ?_ (performs call before.state)
    show 0 + asked weight before.past = 0 + repaid worth before.past + (0 + debts.sum)
    omega
  | @answer front back waiting answer among =>
    -- What the call owes is taken off the books; at its next halt it is settled or put back.
    rw [among] at others
    obtain ⟨early, owed, late, rfl, own, rest⟩ := forall₂_middle others
    refine Balanced.halt (Course.note { before with pending := front ++ back } _) rest ?_
      (own answer before.state)
    show 0 + asked weight before.past =
      0 + repaid worth before.past + (owed + (early ++ late).sum)
    simp only [List.sum_append, List.sum_cons] at balance ⊢
    omega
  | drift state drifted => exact ⟨debts, others, balance⟩

theorem Reaches.balanced {start : σ} (reached : Reaches admits start course) :
    Balanced weight worth course := by
  induction reached with
  | refl => exact ⟨[], .nil, rfl⟩
  | tail _ step ih => exact ih.step performs step

end

/-- While no call is under way, the replies are worth the questions. -/
theorem Balanced.settled (balanced : Balanced weight worth course) (idle : course.pending = []) :
    asked weight course.past = repaid worth course.past := by
  obtain ⟨debts, others, balance⟩ := balanced
  rw [idle] at others
  cases others
  exact balance

end Steps

end Service

end Precompiled
