import Precompiled.Proofs.Session.Service

/-! Heaps inside a session. While a heap works, only its own state changes, and what a
session does meanwhile reaches the heap as something that its surroundings do. A conduct of
heaps thus becomes one of the session, if the session allows what the heaps do and spares
what they rely on. -/
namespace Precompiled.Session

open Relation (ReflTransGen)

variable {session before after : Session} {position : Nat} {cell later : Heap.Cell} {heap : Heap}

/-! ## The cell of a heap -/

theorem length_set (position : Nat) (cell : Heap.Cell) (session : Session) :
    ((Session.cell position).set cell session).heaps.length = session.heaps.length :=
  List.length_modify _ _ _

/-- What a heap left behind is what it finds. -/
theorem get_set (present : position < session.heaps.length) :
    (Session.cell position).get ((Session.cell position).set cell session) = cell := by
  simp [Session.cell, List.getElem?_eq_getElem present]

theorem set_get (present : position < session.heaps.length) :
    (Session.cell position).set ((Session.cell position).get session) session = session := by
  have same : session.heaps.modify position (fun heap =>
      { heap with state := ((Session.cell position).get session).state }) = session.heaps := by
    apply List.ext_getElem?
    intro other
    rw [List.getElem?_modify]
    split
    · rename_i own
      subst own
      simp [Session.cell, List.getElem?_eq_getElem present]
    · simp
  simp only [Session.cell] at same ⊢
  rw [same]

theorem set_set : (Session.cell position).set later ((Session.cell position).set cell session) =
    (Session.cell position).set later session := by
  simp only [Session.cell, List.modify_modify_eq]
  rfl

/-- A heap finds its own state. -/
theorem get_state (found : session.heaps[position]? = some heap) :
    ((Session.cell position).get session).state = heap.state := by
  simp [Session.cell, found]

/-- Where a heap did its work it is found in its new state. -/
theorem getElem_set (cell : Heap.Cell) (found : session.heaps[position]? = some heap)
    (other : Nat) :
    ((Session.cell position).set cell session).heaps[other]? = if other = position
      then some { heap with state := cell.state } else session.heaps[other]? := by
  simp only [Session.cell, List.getElem?_modify]
  split
  · rename_i same
    subst same
    simp [found]
  · rename_i apart
    simp [Ne.symm apart]

/-! ## Conducts -/

/-- A session that keeps to `outer` lets its heaps keep to `inner`, whose changes spare what
is `kept`. -/
structure Hosts (inner : Heap.Image → Conduct Heap.surroundings Heap.Cell)
    (outer : Conduct surroundings Session) (kept : Session → Prop) : Prop where
  changed : ∀ {position session heap cell known} heard, kept session →
    session.heaps[position]? = some heap →
    (inner heap.image).change known ((Session.cell position).get session) cell →
    outer.change heard session ((Session.cell position).set cell session) ∧
      kept ((Session.cell position).set cell session)
  asked : ∀ {position session heap cell question known} heard, kept session →
    session.heaps[position]? = some heap →
    (inner heap.image).question known question ((Session.cell position).get session) cell →
    outer.question heard (position, question) session ((Session.cell position).set cell session) ∧
      kept ((Session.cell position).set cell session)
  /-- What the session puts up with leaves each heap in its place, as one that keeps to the
  same conduct. -/
  relied : ∀ {before after}, kept before → outer.rely before after → kept after ∧
    ∀ position heap, before.heaps[position]? = some heap →
      ∃ later, after.heaps[position]? = some later ∧ inner later.image = inner heap.image ∧
        (inner heap.image).rely ((Session.cell position).get before)
          ((Session.cell position).get after)

namespace Hosts

variable {inner : Heap.Image → Conduct Heap.surroundings Heap.Cell}
  {outer : Conduct surroundings Session} {kept : Session → Prop}
  {known : Heap.surroundings.Heard} {heard : surroundings.Heard}
  (hosts : Hosts inner outer kept)
include hosts

/-- Changes of a heap are changes of its session. -/
theorem changes (heard : surroundings.Heard) (held : kept session)
    (found : session.heaps[position]? = some heap)
    (changes : ReflTransGen ((inner heap.image).change known)
      ((Session.cell position).get session) cell) :
    ReflTransGen (outer.change heard) session ((Session.cell position).set cell session) ∧
      kept ((Session.cell position).set cell session) := by
  obtain ⟨present, -⟩ := List.getElem?_eq_some_iff.mp found
  induction changes with
  | refl =>
    rw [set_get present]
    exact ⟨.refl, held⟩
  | @tail middle last _ change ih =>
    have there := (getElem_set middle found position).trans (if_pos rfl)
    have step : (inner heap.image).change known
        ((Session.cell position).get ((Session.cell position).set middle session)) last := by
      rwa [get_set present]
    obtain ⟨changed, spared⟩ := hosts.changed heard ih.2 there step
    rw [set_set] at changed spared
    exact ⟨ih.1.tail changed, spared⟩

/-- A heap at work inside a session keeps to the conduct of the session. -/
theorem seat {α : Type} {dialogue : Dialogue Heap.surroundings Heap.Cell α}
    (all : ∀ question answer, known question answer) (held : kept session)
    (found : session.heaps[position]? = some heap)
    (obeys : dialogue.Obeys (inner heap.image) (fun _ _ _ => True) known
      ((Session.cell position).get session)) :
    ((dialogue.within (Session.cell position) session).answeredBy fun question =>
      Action.ask (S := surroundings) (position, question)).Obeys outer (fun _ _ after => kept after)
        heard session := by
  induction dialogue generalizing session heap heard with
  | done value state => exact hosts.changes heard held found obeys.1
  | ask request state resume ih =>
    obtain ⟨present, -⟩ := List.getElem?_eq_some_iff.mp found
    obtain ⟨⟨middle, changes, asked⟩, resumed⟩ := obeys
    have there := fun cell => (getElem_set cell found position).trans (if_pos rfl)
    -- The question is asked in the state that the changes before it have led to.
    obtain ⟨onward, spared⟩ := hosts.changes heard held found changes
    have step : (inner heap.image).question known request
        ((Session.cell position).get ((Session.cell position).set middle session)) state := by
      rwa [get_set present]
    obtain ⟨posed, waiting⟩ := hosts.asked heard spared (there middle) step
    rw [set_set] at posed waiting
    refine ⟨⟨_, onward, posed⟩, fun last answer after _ _ relied => ?_⟩
    -- Heaps may have worked or been registered before the answer, but none was taken away.
    obtain ⟨lasting, places⟩ := hosts.relied waiting relied
    obtain ⟨later, placed, same, moved⟩ := places position _ (there state)
    rw [get_set present] at moved
    refine ih answer _ lasting placed ?_
    rw [same]
    exact resumed known answer _ le_rfl (all request answer) moved

variable {task : Heap.Task}

theorem taskAt (follows : ∀ image, (task.perform image).Follows (inner image)) (position : Nat)
    (held : kept session) :
    (Session.taskAt task position session).Obeys outer (fun _ _ after => kept after) heard
      session := by
  simp only [Session.taskAt, Action.bind_apply, Action.read_apply, Dialogue.bind_done]
  cases found : session.heaps[position]? with
  | none => exact ⟨.refl, held⟩
  | some heap =>
    have done := follows heap.image (fun _ _ => True) ((Session.cell position).get session)
    refine Dialogue.Obeys.bind (hosts.seat (fun _ _ => trivial) held found done) ?_
    exact fun _ _ _ _ spared => ⟨.refl, spared⟩

theorem taskEach (follows : ∀ image, (task.perform image).Follows (inner image))
    (positions : List Nat) (held : kept session) :
    (Session.taskEach task positions session).Obeys outer (fun _ _ after => kept after) heard
      session := by
  induction positions generalizing session heard with
  | nil => exact ⟨.refl, held⟩
  | cons position rest ih =>
    refine Dialogue.Obeys.bind (hosts.taskAt follows position held) fun _ reply after _ spared => ?_
    cases reply with
    | none => exact ih spared
    | some reply => exact (ih spared).bind fun _ _ _ _ lasting => ⟨.refl, lasting⟩

end Hosts

/-! ## Offers -/

/-- What the verdict on an offer leads to is the heap built for its library. -/
theorem verdict_built {offer : Offer} (given : (session.verdict offer).1 = .ok heap) :
    build heap.image.library = .ok heap := by
  unfold Session.verdict judge at given
  split at given
  · cases given
  · split at given
    · cases given
    · rwa [build_library given]

/-- An offer registers heaps that were just built, and does nothing to the others. -/
theorem offer_enrols (session : Session) (offer : Offer) : ∃ fresh : List Heap,
    (∀ heap ∈ fresh, build heap.image.library = .ok heap) ∧
      ((submit offer).run session).2.heaps = session.heaps ++ fresh ∧
      ((submit offer).run session).2.counters = session.counters := by
  cases enabled : session.options.enabled with
  | false =>
    rw [submit_disabled enabled]
    exact ⟨[], by simp, (List.append_nil _).symm, rfl⟩
  | true =>
    have settles : Settles session _ _ := submit_settles enabled offer
    obtain ⟨nextId, journal, -, -, settled⟩ := settles
    rw [settled]
    refine ⟨(session.verdict offer).1.toOption.toList, fun heap among => ?_, rfl, rfl⟩
    exact verdict_built (Outcome.toOption_some.mp (Option.mem_toList.mp among))

end Precompiled.Session
