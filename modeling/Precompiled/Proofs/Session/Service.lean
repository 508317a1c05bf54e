import Precompiled.Proofs.Heap.Books
import Precompiled.Proofs.Heap.Credit
import Precompiled.Proofs.Session.Gate

/-! A session as a service. Its tasks are tasks of one heap, tasks of all heaps in load
order, and offers of libraries; before a question of any heap is answered, further tasks
may be begun on the same heap or on others. The heaps write to the same counters. What the
engine brings about with calls to all heaps is what such tasks bring about. -/
namespace Precompiled.Session

open Relation (ReflTransGen)

/-! ## Tasks -/

/-- A question, with the position of the heap that asks it. -/
def surroundings : Signature where
  Request := Nat × Heap.Question
  Answer question := question.2.Answer

/-- Work on the heap at a position, inside the session. -/
def seat {α : Type} (position : Nat) (action : Action Heap.surroundings Heap.Cell α) :
    Action surroundings Session α :=
  (Action.within (cell position) action).answeredBy fun question =>
    Action.ask (S := surroundings) (position, question)

/-- A task of the heap at a position, if there is one. -/
def taskAt (task : Heap.Task) (position : Nat) :
    Action surroundings Session (Option task.Reply) := do
  match ← Action.read fun session : Session => session.heaps[position]? with
  | none => return none
  | some heap => return some (← seat position (task.perform heap.image))

/-- A task of the heaps at the given positions, one after the other. -/
def taskEach (task : Heap.Task) : List Nat → Action surroundings Session (List task.Reply)
  | [] => return []
  | position :: rest => do
    match ← taskAt task position with
    | none => taskEach task rest
    | some reply => return reply :: (← taskEach task rest)

inductive Task where
  /-- A task of the heap at a position. -/
  | one (position : Nat) (task : Heap.Task)
  /-- A task of every heap that is registered when it is begun. -/
  | all (task : Heap.Task)
  /-- A library is offered. -/
  | offer (made : Offer)

def Task.Reply : Task → Type
  | .one _ task => Option task.Reply
  | .all task => List task.Reply
  | .offer _ => Session.Reply

/-- What a task does. -/
def Task.perform : (task : Task) → Action surroundings Session task.Reply
  | .one position task => taskAt task position
  | .all task => do
    let count ← Action.read fun session : Session => session.heaps.length
    taskEach task (List.range count)
  | .offer made => Action.step fun session => (submit made).run session

/-- A session whose journal others may write to. -/
def service : Service surroundings Session where
  Call := Task
  Reply := Task.Reply
  perform := Task.perform
  drift before after := after = { before with journal := after.journal }

/-! ## Tasks without positions -/

/-- The engine answers its questions whichever heap asks, and nobody else does. -/
def forget : (question : Nat × Heap.Question) → Action Engine.signature Session question.2.Answer
  | (_, .engine request) => Action.ask (S := Engine.signature) request
  | (_, other) => pure (Heap.blank other)

/-- Without its position a call is what it is for the heap alone. -/
theorem seat_forget {α : Type} (position : Nat) (operation : Heap.Operation α) :
    (seat position operation.lift).answeredBy forget = Action.within (cell position) operation := by
  have same : ∀ (dialogue : Dialogue Engine.signature Heap.Cell α) (session : Session),
      (((dialogue.answeredBy fun request =>
        Action.ask (S := Heap.surroundings) (.engine request)).within (cell position)
          session).answeredBy fun question =>
            Action.ask (S := surroundings) (position, question)).answeredBy forget =
        dialogue.within (cell position) session := by
    intro dialogue
    induction dialogue with
    | done value state => exact fun _ => rfl
    | ask request state resume ih =>
      intro session
      exact congrArg (Dialogue.ask request _) (funext₂ fun answer after => ih answer _ after)
  exact funext fun session => same _ session

theorem taskEach_forget (call : Heap.Call) (positions : List Nat) :
    (taskEach (.call call) positions).answeredBy forget = callEach call positions := by
  induction positions with
  | nil => rfl
  | cons position rest ih =>
    funext session
    have onward := congrFun ih
    simp only [Action.answeredBy] at onward
    simp only [taskEach, taskAt, callEach, Action.answeredBy, Action.bind_apply, Action.read_apply,
      Dialogue.bind_done]
    cases session.heaps[position]? with
    | none => exact onward session
    | some heap =>
      have own : (seat position (Heap.perform heap.image call).lift session).answeredBy forget = _ :=
        congrFun (seat_forget position (Heap.perform heap.image call)) session
      simp only [Action.bind_apply, Dialogue.bind_assoc, Action.pure_apply, Dialogue.bind_done]
      refine (Dialogue.answeredBy_bind _ _).trans ?_
      refine congrArg₂ Dialogue.bind own (funext₂ fun reply after => ?_)
      refine (Dialogue.answeredBy_bind _ _).trans ?_
      exact congrArg₂ Dialogue.bind (onward after) rfl

/-- Without positions, a call to every heap is the call that the engine makes. -/
theorem all_forget (call : Heap.Call) :
    (Task.perform (.all (.call call))).answeredBy forget = callAll call := by
  funext session
  exact congrFun (taskEach_forget call (List.range session.heaps.length)) session

/-! ## Calls of the engine as tasks -/

/-- The answers of an engine, whichever heap asks, and of visitors that do nothing. -/
def spread (table : Engine.Table) : (question : surroundings.Request) → surroundings.Answer question
  | (_, .engine request) => table request
  | (_, other) => Heap.blank other

/-- The session after the engine called all heaps, one call after the other. -/
def calledAll (table : Engine.Table) (calls : List Heap.Call) (session : Session) : Session :=
  calls.foldl (fun session call => ((callAll call session).conclude table).2) session

theorem all_conclude (table : Engine.Table) (call : Heap.Call) (session : Session) :
    (Task.perform (.all (.call call)) session).conclude (spread table) =
      (callAll call session).conclude table := by
  rw [← all_forget]
  refine (Dialogue.conclude_answeredBy (fun question session => ?_) _).symm
  obtain ⟨position, question⟩ := question
  cases question <;> rfl

theorem carryOut_all (table : Engine.Table) (calls : List Heap.Call) (session : Session) :
    Service.carryOut (spread table) service (calls.map fun call => Task.all (.call call)) session =
      calledAll table calls session := by
  induction calls generalizing session with
  | nil => rfl
  | cons call rest ih =>
    have first := congrArg Prod.snd (all_conclude table call session)
    exact (ih _).trans (congrArg (calledAll table rest) first)

/-- The calls that the engine makes to all heaps at rest are a course. -/
theorem calls_carried {admits : service.Course → Task → Prop} (table : Engine.Table)
    (calls : List Heap.Call) (start : service.Course) (idle : start.pending = [])
    (admitted : ∀ call ∈ calls, ∀ course : service.Course, course.pending = [] →
      admits course (.all (.call call))) :
    ∃ finish, ReflTransGen (Service.Step admits) start finish ∧ finish.pending = [] ∧
      finish.state = calledAll table calls start.state := by
  obtain ⟨finish, onward, rest, state⟩ := start.carries_out (spread table)
    (calls.map fun call => Task.all (.call call)) idle fun task member => by
      obtain ⟨call, among, rfl⟩ := List.mem_map.mp member
      exact admitted call among
  exact ⟨finish, onward, rest, state.trans (carryOut_all table calls start.state)⟩

end Precompiled.Session
