import Precompiled.Proofs.Dialogue.Heed
import Precompiled.Proofs.Heap.Customs
import Precompiled.Proofs.Heap.Parts

/-! Which disciplines the work on a heap heeds. It is enough that the parts of
operations heed it: that a discipline suits them is a handful of facts about single
questions and single changes. -/
namespace Precompiled.Heap

variable {V : Type} {image : Image} {licence : Licence}
  {discipline : Discipline surroundings V} {view : State → V} {kept : V → Prop}

/-- What a discipline says about the engine. -/
def engineDiscipline (discipline : Discipline surroundings V) : Discipline Engine.signature V where
  effect request := discipline.effect (.engine request)
  rely := discipline.rely

/-- Questions that neither resolve a reference nor install code or find a routine. -/
inductive Question.Plain : Question → Prop where
  | findMethod (holder : ClassRef) (name : MethodName) : Plain (.engine (.findMethod holder name))
  | deoptimize (code : LinkedCode) : Plain (.engine (.deoptimize code))
  | method (code : LinkedCode) : Plain (.method code)
  | metadata (value : MetadataRef) : Plain (.metadata value)
  | entry (entry : MetaspaceEntry) : Plain (.entry entry)

/-- Only slots, bounds and bindings differ. -/
def State.Linkless (before after : State) : Prop :=
  after = { before with
    slots := after.slots, extent := after.extent, bindings := after.bindings }

/-- A discipline that the parts of operations heed, where `view` is what it sees of the
heap. -/
structure Suits (image : Image) (licence : Licence) (discipline : Discipline surroundings V)
    (view : State → V) (kept : V → Prop) : Prop where
  keeps : discipline.Keeps kept
  blind : ∀ {before after : State}, before.Linkless after → view after = view before
  plain : ∀ {question seen}, kept seen → question.Plain →
    discipline.effect question seen fun _ now => now
  install : licence.publishes → ∀ {code seen}, kept seen →
    discipline.effect (.engine (.install code)) seen fun _ now => now
  routine : licence.links → ∀ {name seen}, kept seen →
    discipline.effect (.engine (.findRoutine name)) seen fun _ now => now
  gate : licence.links → ∀ state routines linkageDisabled,
    view { state with routines, linkageDisabled } = view state
  rewrite : licence.rewrites → ∀ state loaders metaspace objects,
    view { state with loaders, metaspace, objects } = view state
  metaspace : ∀ {state index name} loader, kept (view state) → StandsFor image index name →
    state.metaspace.slots[index]? = some none →
    ∃ effect, discipline.effect (.engine (.findClass name loader)) (view state) effect ∧
      ∀ answer (after : State),
        view { after with metaspace := after.metaspace.receive index answer } =
          effect answer (view after)
  metadata : ∀ {state codeId localIndex index descriptor} holder, kept (view state) →
    metadataSlot image codeId localIndex = .ok (descriptor, index) →
    state.metadata.slots[index]? = some none →
    ∃ effect, discipline.effect (.engine (.resolveMetadata descriptor holder)) (view state) effect ∧
      ∀ answer (after : State),
        view { after with metadata := after.metadata.receive index answer } =
          effect answer (view after)
  object : ∀ {state index descriptor}, kept (view state) →
    image.library.objectName index = .ok descriptor → state.objects.slots[index]? = some none →
    ∃ effect, discipline.effect (.engine (.resolveObject descriptor)) (view state) effect ∧
      ∀ answer (after : State),
        view { after with objects := after.objects.receive index answer } =
          effect answer (view after)

/-- What is seen of the heap of a cell. -/
abbrev ofState (view : State → V) (cell : Cell) : V :=
  view cell.state

/-- Changing a slot asks nothing and changes nothing else. -/
theorem changeSlot_silent {α : Type} (codeId : Nat) (step : Slot → α × Slot) (cell : Cell) :
    ∃ value after, Operation.changeSlot codeId step cell = .done value after ∧
      cell.state.Linkless after.state := by
  simp only [Operation.changeSlot, Operation.change, Action.step_apply]
  cases cell.state.slots[codeId]? with
  | none => exact ⟨_, _, rfl, rfl⟩
  | some slot => exact ⟨_, _, rfl, rfl⟩

theorem admitCode_linkless (code : LinkedCode) (state : State) :
    state.Linkless (state.admitCode image code).2 := by
  unfold State.admitCode
  repeat' split
  all_goals rfl

theorem countInvalidated_heeds :
    countInvalidated.Heeds (engineDiscipline discipline) (ofState view) kept :=
  Action.heeds_update fun _ => rfl

namespace Suits

variable (suits : Suits image licence discipline view kept)
include suits

theorem engineKeeps : (engineDiscipline discipline).Keeps kept :=
  ⟨suits.keeps.relied, suits.keeps.effected⟩

theorem changeSlot {α : Type} (codeId : Nat) (step : Slot → α × Slot) :
    (Operation.changeSlot codeId step).Heeds (engineDiscipline discipline) (ofState view) kept :=
  Action.heeds_silent fun cell => by
    obtain ⟨value, after, ran, linkless⟩ := changeSlot_silent codeId step cell
    exact ⟨value, after, ran, suits.blind linkless⟩

theorem ask {request : Engine.Request} (plain : Question.Plain (.engine request)) :
    (Operation.ask request).Heeds (engineDiscipline discipline) (ofState view) kept :=
  Action.heeds_ask fun _ initial => suits.plain initial plain

theorem invalidateCode (codeId : Nat) :
    (invalidateCode codeId).Heeds (engineDiscipline discipline) (ofState view) kept := by
  have keeps := suits.engineKeeps
  refine (suits.changeSlot _ _).bind keeps fun outcome => ?_
  cases outcome with
  | none => exact Action.heeds_pure _
  | some outcome =>
    cases outcome with
    | stub => exact Action.heeds_pure _
    | alreadyInvalidated => exact Action.heeds_pure _
    | invalidated wasResolved =>
      cases wasResolved with
      | false => exact countInvalidated_heeds.bind keeps fun _ => Action.heeds_pure _
      | true =>
        refine countInvalidated_heeds.bind keeps fun _ => ?_
        refine Action.Heeds.bind keeps (Action.heeds_read _) fun held => ?_
        cases held with
        | none => exact Action.heeds_pure _
        | some code =>
          refine Action.Heeds.bind keeps (Action.heeds_update fun _ => rfl) fun _ => ?_
          exact (suits.ask (.deoptimize code)).bind keeps fun _ => Action.heeds_pure _

theorem retireCode (codeId : Nat) :
    (retireCode codeId).Heeds (engineDiscipline discipline) (ofState view) kept := by
  refine (suits.changeSlot _ _).bind suits.engineKeeps fun outcome => ?_
  split
  · exact countInvalidated_heeds
  · exact Action.heeds_pure _

theorem publish (permitted : licence.publishes) (code : LinkedCode) :
    (publish image code).Heeds (engineDiscipline discipline) (ofState view) kept := by
  have keeps := suits.engineKeeps
  refine (suits.changeSlot _ _).bind keeps fun outcome => ?_
  cases outcome with
  | none =>
    exact Action.Heeds.bind keeps (Action.heeds_update fun _ => rfl) fun _ => Action.heeds_pure _
  | some outcome =>
    cases outcome with
    | published winner =>
      have admits : (admitCode image winner).Heeds (engineDiscipline discipline) (ofState view)
          kept :=
        Action.heeds_silent fun cell => ⟨_, _, rfl, suits.blind (admitCode_linkless winner _)⟩
      refine admits.bind keeps fun _ => ?_
      refine Action.Heeds.bind keeps (Action.heeds_update fun _ => rfl) fun _ => ?_
      refine Action.Heeds.bind keeps (Action.heeds_update fun _ => rfl) fun _ => ?_
      refine Action.Heeds.bind keeps ?_ fun _ => Action.heeds_pure _
      exact Action.heeds_ask fun _ initial => suits.install permitted initial
    | alreadyPublished other => exact Action.heeds_pure _
    | invalidated => exact Action.heeds_pure _
    | waiting => exact Action.heeds_pure _

/-- Whatever is made of the parts heeds the discipline. -/
theorem made {α : Type} {operation : Operation α} (made : Made image licence operation) :
    operation.Heeds (engineDiscipline discipline) (ofState view) kept := by
  induction made with
  | pure value => exact Action.heeds_pure value
  | bind head tail headIh tailIh => exact headIh.bind suits.engineKeeps tailIh
  | look look => exact Action.heeds_read _
  | note level topic text => exact Action.heeds_update fun _ => rfl
  | count beside => exact Action.heeds_update fun _ => rfl
  | bindings only => exact Action.heeds_update fun cell => suits.blind (by rw [only]; rfl)
  | counted code =>
    exact Action.heeds_silent fun cell => ⟨_, _, rfl, suits.blind (admitCode_linkless code _)⟩
  | invalidate codeId => exact suits.invalidateCode codeId
  | retire codeId => exact suits.retireCode codeId
  | @metaspace index name named loader =>
    have asks (cell : Cell) : Operation.ask (.findClass name loader) cell =
        .ask (Engine.Request.findClass name loader) cell fun answer after =>
          .done (id answer) after := rfl
    refine Action.heeds_getOrResolve asks (fun _ => rfl) ?_
    intro cell initial null
    obtain ⟨effect, permitted, received⟩ := suits.metaspace loader initial named null
    exact ⟨effect, permitted, fun answer after => received answer after.state⟩
  | @metadata codeId localIndex index descriptor named holder =>
    have asks (cell : Cell) : Operation.ask (.resolveMetadata descriptor holder) cell =
        .ask (Engine.Request.resolveMetadata descriptor holder) cell fun answer after =>
          .done (id answer) after := rfl
    refine Action.heeds_getOrResolve asks (fun _ => rfl) ?_
    intro cell initial null
    obtain ⟨effect, permitted, received⟩ := suits.metadata holder initial named null
    exact ⟨effect, permitted, fun answer after => received answer after.state⟩
  | @object index descriptor named =>
    have asks (cell : Cell) : Operation.ask (.resolveObject descriptor) cell =
        .ask (Engine.Request.resolveObject descriptor) cell fun answer after =>
          .done (id answer) after := rfl
    refine Action.heeds_getOrResolve asks (fun _ => rfl) ?_
    intro cell initial null
    obtain ⟨effect, permitted, received⟩ := suits.object initial named null
    exact ⟨effect, permitted, fun answer after => received answer after.state⟩
  | findMethod holder name => exact suits.ask (.findMethod holder name)
  | publish permitted code => exact suits.publish permitted code
  | rewrite permitted silent =>
    refine Action.heeds_silent fun cell => ?_
    obtain ⟨value, after, ran, rewritten⟩ := silent cell
    exact ⟨value, after, ran, by rw [rewritten]; exact suits.rewrite permitted _ _ _ _⟩
  | findRoutine permitted name =>
    exact Action.heeds_ask fun _ initial => suits.routine permitted initial
  | gate permitted only =>
    exact Action.heeds_update fun cell => by
      simp only [ofState]
      rw [only]
      exact suits.gate permitted _ _ _

end Suits

/-! ## Tasks -/

/-- What heeds a discipline goes on to do so inside larger surroundings. -/
theorem heeds_lift {α : Type} {seen : V} {dialogue : Dialogue Engine.signature Cell α}
    (heeds : dialogue.Heeds (engineDiscipline discipline) (ofState view) seen) :
    (dialogue.answeredBy fun request =>
      Action.ask (S := surroundings) (.engine request)).Heeds discipline (ofState view) seen := by
  induction dialogue generalizing seen with
  | done result state => exact heeds
  | ask request state resume ih =>
    obtain ⟨same, effect, allowed, resumed⟩ := heeds
    exact ⟨same, effect, allowed, fun answer after onward => ih answer after (resumed answer after onward)⟩

namespace Suits

variable (suits : Suits image licence discipline view kept)
include suits

/-- A walk heeds the discipline if what it does at each stop does. -/
theorem visitEach {ι α : Type} {look : State → ι → Option α} {visit : α → Action surroundings Cell Unit}
    (visits : ∀ found, (visit found).Heeds discipline (ofState view) kept) (stops : List ι) :
    (visitEach look visit stops).Heeds discipline (ofState view) kept := by
  induction stops with
  | nil => exact Action.heeds_pure _
  | cons stop rest ih =>
    refine Action.Heeds.bind suits.keeps (Action.heeds_read _) fun found => ?_
    cases found with
    | none =>
      have nothing : (pure () : Action surroundings Cell Unit).Heeds discipline (ofState view)
          kept := Action.heeds_pure ()
      exact nothing.bind suits.keeps fun _ => ih
    | some found => exact (visits found).bind suits.keeps fun _ => ih

theorem visitMethods {visit : LinkedCode → Action surroundings Cell Unit}
    (visits : ∀ found, (visit found).Heeds discipline (ofState view) kept) :
    (visitMethods visit).Heeds discipline (ofState view) kept :=
  Action.Heeds.bind suits.keeps (Action.heeds_read _) fun _ => suits.visitEach visits _

theorem shown {question : Question} (plain : question.Plain) :
    (Action.ask (S := surroundings) question).Heeds discipline (ofState view) kept :=
  Action.heeds_ask fun _ initial => suits.plain initial plain

theorem entries : (visitEntries fun entry => Action.ask (S := surroundings) (.entry entry)).Heeds
    discipline (ofState view) kept := by
  have keeps := suits.keeps
  refine Action.Heeds.bind keeps (Action.heeds_read _) fun classes => ?_
  refine (suits.visitEach (fun klass => suits.shown (.entry _)) _).bind keeps fun _ => ?_
  refine Action.Heeds.bind keeps (Action.heeds_read _) fun metadata => ?_
  exact suits.visitEach (fun value => suits.shown (.entry _)) _

/-- The collector heeds the discipline if that knows what its answers do. -/
theorem collect (relocates : ∀ {state index object}, kept (view state) →
      state.objects.get index = some object →
      ∃ effect, discipline.effect (.relocate object) (view state) effect ∧
        ∀ answer (after : State),
          view { after with objects := Got.replaceIf index object answer after.objects } =
            effect answer (view after)) :
    (updateObjects fun object => Action.ask (S := surroundings) (.relocate object)).Heeds
      discipline (ofState view) kept := by
  have keeps := suits.keeps
  refine Action.Heeds.bind keeps ?_ fun visits => Action.heeds_pure _
  refine Action.Heeds.bind keeps (Action.heeds_read _) fun table => ?_
  induction List.range table.size with
  | nil => exact Action.heeds_pure _
  | cons index rest ih =>
    refine Action.Heeds.bind keeps ?_ fun first => ih.bind keeps fun others => Action.heeds_pure _
    intro cell initial
    simp only [Got.updateSlot, Action.bind_apply, Action.read_apply, Dialogue.bind_done]
    cases held : (Cell.objects.get cell).get index with
    | none => exact rfl
    | some object =>
      obtain ⟨effect, permitted, replaced⟩ := relocates initial held
      exact ⟨rfl, effect, permitted, fun answer after _ => replaced answer after.state⟩

/-- A walk that shows things heeds the discipline. -/
theorem walk {task : Task} (walks : task = .methods ∨ task = .metadata ∨ task = .entries) :
    (task.perform image).Heeds discipline (ofState view) kept := by
  rcases walks with rfl | rfl | rfl
  · exact suits.visitMethods fun code => suits.shown (.method code)
  · exact suits.visitMethods fun code => suits.visitEach (fun value => suits.shown (.metadata value)) _
  · exact suits.entries

/-- A call that is made within the licence heeds the discipline. -/
theorem call {call : Call} (made : Made image licence (perform image call)) :
    ((Task.call call).perform image).Heeds discipline (ofState view) kept :=
  fun cell initial => heeds_lift (suits.made made cell initial)

end Suits

end Precompiled.Heap
