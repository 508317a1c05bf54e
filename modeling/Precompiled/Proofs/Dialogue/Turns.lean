import Precompiled.Proofs.Dialogue.Course

/-! Calls that take turns. As long as no call is begun while another one waits for
an answer, a call may break a property in between: what every call restores before
it replies holds whenever no call is under way. Calls that go on aside, and never
break it, may be begun and answered at any time. -/
namespace Precompiled

open Relation (ReflTransGen)

variable {S : Signature} {σ : Type}

/-- A conduct that allows everything and puts up with `rely`. -/
def Conduct.free (rely : σ → σ → Prop) : Conduct S σ where
  change _ _ _ := True
  question _ _ _ _ := True
  rely := rely

/-- Two ends of a dialogue that may do as it likes are reached together. -/
theorem Dialogue.Obeys.and {α : Type} {rely : σ → σ → Prop} {heard : S.Heard} {before : σ}
    {dialogue : Dialogue S σ α} {first second : S.Heard → α → σ → Prop}
    (one : dialogue.Obeys (Conduct.free rely) first heard before)
    (other : dialogue.Obeys (Conduct.free rely) second heard before) :
    dialogue.Obeys (Conduct.free rely)
      (fun later value state => first later value state ∧ second later value state)
      heard before := by
  induction dialogue generalizing heard before with
  | done result state => exact ⟨one.1, one.2, other.2⟩
  | ask request state resume ih =>
    refine ⟨one.1, fun later answer after more told onward => ?_⟩
    exact ih answer after (one.2 later answer after more told onward)
      (other.2 later answer after more told onward)

/-- A conduct that allows only `rely` and puts up with everything. -/
def Conduct.mild (rely : σ → σ → Prop) : Conduct S σ where
  change _ := rely
  question _ _ := rely
  rely _ _ := True

namespace Service

variable {service : Service S σ} {admits : service.Course → service.Call → Prop}
  {aside : service.Call → Prop} {rely : σ → σ → Prop} {holds : σ → Prop}

/-- The dialogue restores the property before it comes to its end. -/
abbrev Restores {α : Type} (rely : σ → σ → Prop) (holds : σ → Prop) (heard : S.Heard) (before : σ)
    (dialogue : Dialogue S σ α) : Prop :=
  dialogue.Obeys (Conduct.free rely) (fun _ _ state => holds state) heard before

/-- The dialogue does only what everybody puts up with. -/
abbrev Mild {α : Type} (rely : σ → σ → Prop) (heard : S.Heard) (before : σ)
    (dialogue : Dialogue S σ α) : Prop :=
  dialogue.Obeys (Conduct.mild rely) (fun _ _ _ => True) heard before

/-- Calls take turns, except those aside. -/
structure Orders (admits : service.Course → service.Call → Prop) (aside : service.Call → Prop)
    (rely : σ → σ → Prop) (holds : σ → Prop) : Prop where
  steady : ∀ state, rely state state
  lasting : ∀ {first second third}, rely first second → rely second third → rely first third
  drifted : ∀ {before after}, service.drift before after → rely before after
  kept : ∀ {before after}, holds before → rely before after → holds after
  alone : ∀ {course call}, admits course call → ¬aside call →
    ∀ waiting ∈ course.pending, aside waiting.call
  performed : ∀ {course call}, admits course call → ¬aside call → holds course.state → ∀ known,
    Restores rely holds known course.state (service.perform call course.state)
  mild : ∀ {call}, aside call → ∀ known state, Mild rely known state (service.perform call state)

/-- What holds of a course in which calls take turns. -/
structure Turns (aside : service.Call → Prop) (rely : σ → σ → Prop) (holds : σ → Prop)
    (course : service.Course) : Prop where
  one : course.pending.Pairwise fun first second => aside first.call ∨ aside second.call
  rest : (∀ waiting ∈ course.pending, aside waiting.call) → holds course.state
  busy : ∀ waiting ∈ course.pending, ¬aside waiting.call → ∀ later answer after,
    heard course.past ≤ later → later waiting.request answer → rely course.state after →
      Restores rely holds later after (waiting.resume answer after)
  idle : ∀ waiting ∈ course.pending, aside waiting.call → ∀ later answer after,
    heard course.past ≤ later → later waiting.request answer →
      Mild rely later after (waiting.resume answer after)

section Orders

variable (orders : Orders admits aside rely holds)
include orders

/-- Mild changes in a row are one. -/
theorem Orders.changes {before after : σ} (changes : ReflTransGen rely before after) :
    rely before after := by
  induction changes with
  | refl => exact orders.steady before
  | tail _ change ih => exact orders.lasting ih change

/-- Time passes, and the state changes as everybody puts up with. -/
theorem Turns.later {course after : service.Course} (turns : Turns aside rely holds course)
    (same : after.pending = course.pending) (more : heard course.past ≤ heard after.past)
    (onward : rely course.state after.state) : Turns aside rely holds after where
  one := same ▸ turns.one
  rest free := orders.kept (turns.rest (same ▸ free)) onward
  busy waiting among other later answer last further told onwards :=
    turns.busy waiting (same ▸ among) other later answer last (more.trans further) told
      (orders.lasting onward onwards)
  idle waiting among own later answer last further told :=
    turns.idle waiting (same ▸ among) own later answer last (more.trans further) told

/-- A call aside comes to its next halt. -/
theorem Turns.halt_aside {course : service.Course} (turns : Turns aside rely holds course)
    {call : service.Call} (own : aside call) {dialogue : Dialogue S σ (service.Reply call)}
    (mild : Mild rely (heard course.past) course.state dialogue) :
    Turns aside rely holds (course.halt call dialogue) := by
  cases dialogue with
  | done reply state =>
    obtain ⟨changes, -⟩ := mild
    have onward : rely course.state state := orders.changes changes
    exact turns.later orders rfl (heard_grows _ _) onward
  | ask request state resume =>
    obtain ⟨⟨middle, changes, asked⟩, resumed⟩ := mild
    have onward : rely course.state state := orders.lasting (orders.changes changes) asked
    have noted : Turns aside rely holds ({ course with state }.note (.asked call request)) :=
      turns.later orders rfl (heard_grows _ _) onward
    refine
      { one := List.pairwise_cons.mpr ⟨fun _ _ => .inl own, noted.one⟩
        rest := fun free =>
          noted.rest fun waiting among => free waiting (List.mem_cons_of_mem _ among)
        busy := ?_
        idle := ?_ }
    · intro waiting among other
      cases among with
      | head => exact absurd own other
      | tail _ among => exact noted.busy waiting among other
    · intro waiting among
      cases among with
      | head =>
        exact fun _ later answer after more told =>
          resumed later answer after ((heard_grows _ _).trans more) told trivial
      | tail _ among => exact noted.idle waiting among

omit orders in
/-- The one call that is not aside comes to its next halt. -/
theorem Turns.halt {course : service.Course}
    (alone : ∀ waiting ∈ course.pending, aside waiting.call)
    (idle : ∀ waiting ∈ course.pending, ∀ later answer after, heard course.past ≤ later →
      later waiting.request answer → Mild rely later after (waiting.resume answer after))
    {call : service.Call} (other : ¬aside call) {dialogue : Dialogue S σ (service.Reply call)}
    (restores : Restores rely holds (heard course.past) course.state dialogue) :
    Turns aside rely holds (course.halt call dialogue) := by
  have one : course.pending.Pairwise fun first second => aside first.call ∨ aside second.call :=
    List.pairwise_of_forall_mem_list fun first among _ _ => .inl (alone first among)
  cases dialogue with
  | done reply state =>
    exact
      { one := one
        rest := fun _ => restores.2
        busy := fun waiting among apart => absurd (alone waiting among) apart
        idle := fun waiting among _ later answer after more told =>
          idle waiting among later answer after ((heard_grows _ _).trans more) told }
  | ask request state resume =>
    refine
      { one := List.pairwise_cons.mpr ⟨fun waiting among => .inr (alone waiting among), one⟩
        rest := fun free => absurd (free _ List.mem_cons_self) other
        busy := ?_
        idle := ?_ }
    · intro waiting among apart
      cases among with
      | head =>
        exact fun later answer after more told onward =>
          restores.2 later answer after ((heard_grows _ _).trans more) told onward
      | tail _ among => exact absurd (alone waiting among) apart
    · intro waiting among own
      cases among with
      | head => exact absurd own other
      | tail _ among =>
        exact fun later answer after more told =>
          idle waiting among later answer after ((heard_grows _ _).trans more) told

theorem Turns.step {before after : service.Course} (turns : Turns aside rely holds before)
    (step : Step admits before after) : Turns aside rely holds after := by
  cases step with
  | call call admitted =>
    have noted : Turns aside rely holds (before.note (.called call)) :=
      turns.later orders rfl (heard_grows _ _) (orders.steady _)
    by_cases own : aside call
    · exact noted.halt_aside orders own (orders.mild own _ _)
    · have free := orders.alone admitted own
      have alone : ∀ waiting ∈ (before.note (.called call)).pending, aside waiting.call := free
      refine Turns.halt alone
        (fun waiting among => noted.idle waiting among (alone waiting among)) own ?_
      exact orders.performed admitted own (turns.rest free) _
  | @answer front back waiting answer among =>
    have mine : waiting ∈ before.pending := by simp [among]
    have others : ∀ other ∈ front ++ back, other ∈ before.pending :=
      fun other member => mem_rest among member
    obtain ⟨apart, rest⟩ : (∀ other ∈ front ++ back, aside waiting.call ∨ aside other.call) ∧
        (front ++ back).Pairwise fun first second => aside first.call ∨ aside second.call := by
      have one := turns.one
      rw [among, List.pairwise_middle Or.symm] at one
      exact List.pairwise_cons.mp one
    by_cases own : aside waiting.call
    · refine Turns.halt_aside orders ?_ own ?_
      · refine
          { one := rest
            rest := fun free => turns.rest fun other member => ?_
            busy := fun other member away later answer last more told onward =>
              turns.busy other (others other member) away later answer last
                ((heard_grows _ _).trans more) told onward
            idle := fun other member own later answer last more told =>
              turns.idle other (others other member) own later answer last
                ((heard_grows _ _).trans more) told }
        rw [among] at member
        rcases List.mem_append.mp member with early | late
        · exact free other (List.mem_append_left _ early)
        · cases late with
          | head => exact own
          | tail _ late => exact free other (List.mem_append_right _ late)
      · exact turns.idle waiting mine own _ answer _ (heard_grows _ _) (heard_answer _ _ _ _ _)
    · have alone : ∀ other ∈ front ++ back, aside other.call :=
        fun other member => (apart other member).resolve_left own
      refine Turns.halt alone ?_ own ?_
      · exact fun other member later answer last more told =>
          turns.idle other (others other member) (alone other member) later answer last
            ((heard_grows _ _).trans more) told
      · exact turns.busy waiting mine own _ answer _ (heard_grows _ _) (heard_answer _ _ _ _ _)
          (orders.steady _)
  | drift state drifted => exact turns.later orders rfl le_rfl (orders.drifted drifted)

theorem Turns.steps {before after : service.Course} (turns : Turns aside rely holds before)
    (onward : ReflTransGen (Step admits) before after) : Turns aside rely holds after := by
  induction onward with
  | refl => exact turns
  | tail _ step ih => exact ih.step orders step

/-- What every call restores holds whenever no call is under way. -/
theorem Reaches.resting {start : σ} (initial : holds start) {course : service.Course}
    (reached : Reaches admits start course) : Turns aside rely holds course := by
  refine Turns.steps orders ?_ reached
  exact
    { one := .nil
      rest := fun _ => initial
      busy := fun _ among => (List.not_mem_nil among).elim
      idle := fun _ among => (List.not_mem_nil among).elim }

end Orders

/-! ## While no call is under way -/

section Rest

variable {course : service.Course} {other : σ → Prop}

/-- While no call is under way, what has to hold may be chosen anew. -/
theorem Turns.rebase (turns : Turns aside rely holds course)
    (free : ∀ waiting ∈ course.pending, aside waiting.call) (now : other course.state) :
    Turns aside rely other course where
  one := turns.one
  rest _ := now
  busy waiting among apart := absurd (free waiting among) apart
  idle := turns.idle

/-- A call that is begun while no other one is under way brings about what it
restores. -/
theorem Turns.begin (turns : Turns aside rely holds course)
    (free : ∀ waiting ∈ course.pending, aside waiting.call) {call : service.Call}
    (own : ¬aside call)
    (restores : ∀ known,
      Restores rely other known course.state (service.perform call course.state)) :
    Turns aside rely other (course.begin call) := by
  have alone : ∀ waiting ∈ (course.note (.called call)).pending, aside waiting.call := free
  refine Turns.halt alone ?_ own (restores _)
  intro waiting among later answer after more told
  exact turns.idle waiting among (free waiting among) later answer after
    ((heard_grows _ _).trans more) told

end Rest

end Service

end Precompiled
