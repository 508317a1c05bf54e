import Precompiled.Proofs.Dialogue.Tally
import Precompiled.Proofs.Heap.Heeding

/-! What a load may call its own. A load replies with a count of methods, and it is the
count of the installations it asked for itself: whatever else happens while its questions
are open is counted by others. -/
namespace Precompiled.Heap

open Precompiled.Action

variable {image : Image} {view : ClassView}

/-! ## Work that installs nothing -/

/-- Code is installed by no task that heeds this discipline. -/
def barren : Discipline surroundings Unit where
  effect question _ _ := ∀ code, question ≠ .engine (.install code)
  rely _ _ := True

/-- All that an operation may do but publish. -/
def Licence.barren : Licence :=
  ⟨False, True, True⟩

theorem barren_suits : Suits image .barren barren (fun _ => ()) fun _ => True where
  keeps := Discipline.keeps_true
  blind _ := rfl
  plain _ plain := by cases plain <;> nofun
  install permitted := permitted.elim
  routine _ _ _ _ := nofun
  gate _ _ _ _ := rfl
  rewrite _ _ _ _ _ := rfl
  metaspace _ _ _ _ := ⟨fun _ _ => (), nofun, fun _ _ => rfl⟩
  metadata _ _ _ _ := ⟨fun _ _ => (), nofun, fun _ _ => rfl⟩
  object _ _ _ := ⟨fun _ _ => (), nofun, fun _ _ => rfl⟩

/-- A question that installs code weighs one. -/
def Question.weight : Question → Nat
  | .engine (.install _) => 1
  | _ => 0

theorem Question.weight_eq_zero {question : Question}
    (other : ∀ code, question ≠ .engine (.install code)) : question.weight = 0 := by
  unfold Question.weight
  split
  · exact absurd rfl (other _)
  · rfl

/-- What a question to the engine weighs. -/
def requestWeight (request : Engine.Request) : Nat :=
  Question.weight (.engine request)

section Barren

variable {S : Signature} {α : Type} {discipline : Discipline S Unit} {weight : S.Request → Nat}
  (free : ∀ request effect, discipline.effect request () effect → weight request = 0)
  (rely : discipline.rely () ())
include free rely

/-- Where only questions of no weight are allowed, nothing is owed. -/
theorem barren_weighs {dialogue : Dialogue S Cell α}
    (heeds : dialogue.Heeds discipline (ofState fun _ => ()) ()) :
    dialogue.Weighs weight (fun _ => 0) 0 := by
  induction dialogue with
  | done value state => rfl
  | ask request state resume ih =>
    obtain ⟨-, effect, allowed, resumed⟩ := heeds
    intro answer after
    rw [free request effect allowed]
    exact ih answer after (resumed answer after rely)

theorem barren_light {action : Action S Cell α}
    (heeds : action.Heeds discipline (ofState fun _ => ()) fun _ => True) : action.Light weight :=
  fun cell => barren_weighs free rely (heeds cell trivial)

end Barren

/-- What is made without publishing weighs nothing. -/
theorem made_light {α : Type} {operation : Operation α} (made : Made image .barren operation) :
    operation.Light requestWeight :=
  barren_light (fun _ _ allowed => Question.weight_eq_zero allowed) trivial
    (barren_suits.made made)

/-! ## Publishing -/

/-- What publishing is worth. -/
def publicationWorth : Slot.Publication → Nat
  | .published _ => 1
  | _ => 0

theorem publish_weighs (code : LinkedCode) :
    (publish image code).Weighs requestWeight publicationWorth 0 := by
  intro cell
  simp only [publish, Operation.changeSlot, Operation.change, bind_apply, step_apply,
    Dialogue.bind_done]
  cases cell.state.slots[code.codeId]? with
  | none => rfl
  | some slot =>
    dsimp only
    cases (slot.publish code).1 with
    | published winner => exact fun _ _ => rfl
    | alreadyPublished other => rfl
    | invalidated => rfl
    | waiting => rfl

/-- What trying to publish a method is worth. -/
def methodWorth : Except Error Bool → Nat
  | .ok true => 1
  | _ => 0

theorem publishMethod_weighs (entry : ClassEntry) (record : Blob.CodeRecord) :
    (publishMethod image entry view record).Weighs requestWeight methodWorth 0 := by
  refine Light.bind (light_read _) fun phase => ?_
  split
  · exact weighs_pure rfl
  cases image.library.methodName record with
  | error error => exact weighs_pure rfl
  | ok name =>
    have asks : Made image .barren (Operation.ask (.findMethod view.klass name)) :=
      .findMethod view.klass name
    refine Light.bind (made_light asks) fun live => ?_
    cases live with
    | none => exact Light.bind (light_update _) fun _ => weighs_pure rfl
    | some live =>
      dsimp only
      split
      · exact weighs_pure rfl
      cases image.library.detailOf record with
      | error error => exact weighs_pure rfl
      | ok detail =>
        refine Light.bind (made_light (resolveReferences_made _ detail view)) fun resolved => ?_
        cases resolved with
        | error error => exact weighs_pure rfl
        | ok _ =>
          dsimp only
          cases image.place record detail name live.method view.klass entry.classId with
          | error error => exact weighs_pure rfl
          | ok code =>
            refine (publish_weighs code).bind fun publication => ?_
            cases publication <;> exact weighs_pure rfl

/-- A list of methods is worth what it counts. -/
theorem publishMethods_weighs (entry : ClassEntry) (records : List Blob.CodeRecord) :
    (publishMethods image entry view records).Weighs requestWeight id 0 := by
  induction records with
  | nil => exact weighs_pure rfl
  | cons record rest ih =>
    -- The first method is counted before the others are tried, so they begin with `own` owed.
    have onward : ∀ own : Nat,
        (do return own + (← publishMethods image entry view rest) : Operation Nat).Weighs
          requestWeight id own := by
      intro own
      have shifted := ih.shift own
      rw [Nat.zero_add] at shifted
      exact shifted.bind fun others => weighs_pure (Nat.add_comm own others)
    have counted (own : Nat) : (pure own : Operation Nat).Weighs requestWeight id own := weighs_pure rfl
    refine (publishMethod_weighs entry record).bind fun published => ?_
    cases published with
    | ok made =>
      cases made with
      | false => exact (counted 0).bind onward
      | true => exact (counted 1).bind onward
    | error error =>
      have report : ∀ text : String, (do
          Operation.note .debug .methods text
          let own ← pure 0
          return own + (← publishMethods image entry view rest) : Operation Nat).Weighs
            requestWeight id 0 :=
        fun text => Light.bind (light_update _) fun _ => (counted 0).bind onward
      cases error with
      | unresolved site reference => exact Light.bind (light_update _) fun _ => report _
      | _ => exact report _

/-- What the reply of a load is worth. -/
def loadWorth : Except Miss Nat → Nat
  | .ok count => count
  | .error _ => 0

theorem finishLoad_weighs (outcome : Except Miss ClassEntry) :
    (finishLoad image view outcome).Weighs requestWeight loadWorth 0 := by
  cases outcome with
  | error miss => exact Light.bind (made_light (afterMiss_made view miss)) fun _ => weighs_pure rfl
  | ok entry =>
    refine Light.bind (made_light (ensureRoutines_made trivial)) fun linked => ?_
    cases linked with
    | false => exact weighs_pure rfl
    | true =>
      cases image.library.methodsOf entry.record with
      | error error => exact Light.bind (light_update _) fun _ => weighs_pure rfl
      | ok records => exact (publishMethods_weighs entry records).bind fun count => weighs_pure rfl

/-- A load replies with the number of its installations. -/
theorem loadClass_weighs (view : ClassView) :
    (loadClass image view).Weighs requestWeight loadWorth 0 := by
  refine Light.bind (light_read _) fun disabled => ?_
  split
  · exact weighs_pure rfl
  refine Light.bind (made_light (resolveClass_made trivial view)) fun outcome => ?_
  have weighs : (finishLoad image view outcome).Weighs requestWeight loadWorth 0 :=
    finishLoad_weighs outcome
  cases outcome <;> exact weighs

/-! ## Tasks -/

/-- The weight that a question has for a task. Publishing given code is nobody's load. -/
def Task.weight : Task → Question → Nat
  | .call (.publish _), _ => 0
  | _, question => question.weight

/-- What the reply to a task is worth. -/
def Task.worth : (task : Task) → task.Reply → Nat
  | .call (.loadClass _), reply => loadWorth reply
  | _, _ => 0

theorem lift_weighs {α : Type} {operation : Operation α} {worth : α → Nat}
    {weight : Question → Nat}
    (weighs : operation.Weighs (fun request => weight (.engine request)) worth 0) :
    operation.lift.Weighs weight worth 0 :=
  fun cell => (weighs cell).answeredBy fun _ _ _ _ => (Nat.zero_add _).symm

/-- A task that heeds the discipline is worth nothing and weighs nothing. -/
theorem walk_weighs {task : Task} (own : ∀ question, task.weight question = question.weight)
    (free : ∀ reply, task.worth reply = 0)
    (heeds : (task.perform image).Heeds barren (ofState fun _ => ()) fun _ => True) :
    (task.perform image).Weighs task.weight task.worth 0 := by
  rw [funext own, funext free]
  exact barren_light (fun _ _ allowed => Question.weight_eq_zero allowed) trivial heeds

/-- Whatever the answers are, a task's reply is worth its questions. -/
theorem task_weighs (task : Task) : (task.perform image).Weighs task.weight task.worth 0 := by
  have suits : Suits image .barren barren (fun _ => ()) fun _ => True := barren_suits
  cases task with
  | call call =>
    cases call with
    | loadClass view => exact lift_weighs (loadClass_weighs view)
    -- Its installation is left out of the account, so there is nothing to be paid for.
    | publish code => exact fun cell => Dialogue.weighs_nothing _
    | _ =>
      refine walk_weighs (fun _ => rfl) (fun _ => rfl) (suits.call (perform_made ?_))
      exact ⟨False.elim, fun _ => trivial, fun _ => trivial⟩
  | collect =>
    refine walk_weighs (fun _ => rfl) (fun _ => rfl) (suits.collect ?_)
    exact fun _ _ => ⟨fun _ _ => (), nofun, fun _ _ => rfl⟩
  | methods => exact walk_weighs (fun _ => rfl) (fun _ => rfl) (suits.walk (.inl rfl))
  | metadata => exact walk_weighs (fun _ => rfl) (fun _ => rfl) (suits.walk (.inr (.inl rfl)))
  | entries => exact walk_weighs (fun _ => rfl) (fun _ => rfl) (suits.walk (.inr (.inr rfl)))

end Precompiled.Heap
