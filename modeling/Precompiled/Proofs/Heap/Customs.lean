import Precompiled.Proofs.Heap.Obedience

/-! Calls inside larger surroundings, and walks: the tasks of a heap keep to its
customs. -/
namespace Precompiled.Heap

open Relation (ReflTransGen)

variable {image : Image} {rely : State → State → Prop}

/-! ## Calls -/

/-- A dialogue with the engine goes on in the same way inside larger
surroundings. -/
theorem obeys_answeredBy {α : Type} {conduct : Conduct Engine.signature Cell}
    {outer : Conduct surroundings Cell}
    (change : ∀ heard before after, conduct.change (engineHeard heard) before after →
      outer.change heard before after)
    (question : ∀ heard request before after,
      conduct.question (engineHeard heard) request before after →
        outer.question heard (.engine request) before after)
    (relied : ∀ before after, outer.rely before after → conduct.rely before after)
    {heard : surroundings.Heard} {before : Cell} {dialogue : Dialogue Engine.signature Cell α}
    (obeys : dialogue.Obeys conduct (fun _ _ _ => True) (engineHeard heard) before) :
    (dialogue.answeredBy fun request =>
      Action.ask (S := surroundings) (.engine request)).Obeys outer (fun _ _ _ => True)
        heard before := by
  induction dialogue generalizing heard before with
  | done result state => exact ⟨ReflTransGen.mono (change heard) _ _ obeys.1, trivial⟩
  | ask request state resume ih =>
    obtain ⟨⟨middle, changes, asked⟩, resumed⟩ := obeys
    refine ⟨⟨middle, ReflTransGen.mono (change heard) _ _ changes,
      question heard request middle state asked⟩, fun later answer after more told onward => ?_⟩
    exact ih answer after (resumed (engineHeard later) answer after
      (fun _ _ known => more _ _ known) told (relied _ _ onward))

theorem obeys_lift {α : Type} {call : Call} {heard : surroundings.Heard} {before : Cell}
    {dialogue : Dialogue Engine.signature Cell α}
    (obeys : dialogue.Obeys (callConduct image call rely) (fun _ _ _ => True) (engineHeard heard)
      before) :
    (dialogue.answeredBy fun request =>
      Action.ask (S := surroundings) (.engine request)).Obeys
        (taskConduct image (.call call) rely) (fun _ _ _ => True) heard before := by
  refine obeys_answeredBy ?_ ?_ (fun _ _ onward => onward) obeys
  · rintro heard first second (same | change)
    · exact .inl same
    · exact .inr (.call change)
  · exact fun heard request first second asked => .engine asked

/-! ## Walks -/

section Walks

variable {S : Signature} {ι α : Type} {conduct : Conduct S Cell}

/-- A walk keeps to a conduct if showing does what is found at a stop. -/
theorem visitEach_follows {look : State → ι → Option α} {visit : α → Action S Cell Unit}
    (visits : ∀ stop found heard cell, look cell.state stop = some found →
      (visit found cell).Obeys conduct (fun _ _ _ => True) heard cell) (stops : List ι) :
    (visitEach look visit stops).Follows conduct := by
  induction stops with
  | nil => exact Action.follows_pure _
  | cons stop rest ih =>
    intro heard cell
    simp only [visitEach, Action.bind_apply, Action.read_apply, Dialogue.bind_done]
    cases found : look cell.state stop with
    | none => exact ih heard cell
    | some value =>
      exact (visits stop value heard cell found).bind fun later _ after _ _ => ih later after

theorem visitMethods_follows {visit : LinkedCode → Action S Cell Unit}
    (visits : ∀ codeId code heard cell, cell.state.lookup codeId = some code →
      (visit code cell).Obeys conduct (fun _ _ _ => True) heard cell) :
    (visitMethods visit).Follows conduct :=
  Action.Follows.bind (Action.follows_read _) fun _ => visitEach_follows visits _

end Walks

/-- Showing something is a question that leaves the heap alone. -/
theorem show_follows {task : Task} {question : Question} {heard : surroundings.Heard} {cell : Cell}
    (shown : Show task question cell.state cell.state) :
    (Action.ask (S := surroundings) question cell).Obeys (taskConduct image task rely)
      (fun _ _ _ => True) heard cell :=
  ⟨⟨cell, .refl, .visitor shown⟩, fun _ _ _ _ _ _ => ⟨.refl, trivial⟩⟩

theorem collect_follows :
    (updateObjects fun object => Action.ask (S := surroundings) (.relocate object)).Follows
      (taskConduct image .collect rely) := by
  refine Action.Follows.bind ?_ fun visits => Action.follows_pure _
  refine Got.follows_updateEach (fun heard object value => heard (.relocate object) value) ?_ ?_
  · intro index object cell held heard
    exact ⟨⟨cell, .refl, .visitor (.relocate object rfl)⟩, fun _ _ _ _ told _ => ⟨.refl, told⟩⟩
  · intro heard index object value cell told
    exact .inr (.collect (.slot told))

theorem metadata_follows :
    (visitMetadata fun value => Action.ask (S := surroundings) (.metadata value)).Follows
      (taskConduct image .metadata rely) := by
  refine visitMethods_follows fun codeId code heard cell _ => ?_
  exact visitEach_follows (fun index value heard cell held => show_follows (.metadata held rfl))
    code.metadataSlots heard cell

theorem entries_follows :
    (visitEntries fun entry => Action.ask (S := surroundings) (.entry entry)).Follows
      (taskConduct image .entries rely) := by
  refine Action.Follows.bind (Action.follows_read _) fun classes => ?_
  refine Action.Follows.bind
    (visitEach_follows (fun index klass heard cell held => show_follows (.entry rfl)) _) fun _ => ?_
  refine Action.Follows.bind (Action.follows_read _) fun metadata => ?_
  exact visitEach_follows (fun index value heard cell held => show_follows (.entry rfl)) _

/-! ## Tasks -/

/-- Every task keeps to the customs of its heap. -/
theorem task_follows (task : Task) : (task.perform image).Follows (taskConduct image task rely) := by
  cases task with
  | call call => exact fun heard cell => obeys_lift (perform_follows call _ cell)
  | collect => exact collect_follows
  | methods => exact visitMethods_follows fun _ _ _ _ alive => show_follows (.method alive rfl)
  | metadata => exact metadata_follows
  | entries => exact entries_follows

end Precompiled.Heap
