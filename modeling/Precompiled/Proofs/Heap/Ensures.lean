import Precompiled.Proofs.Dialogue.Turns
import Precompiled.Proofs.Heap.Task
import Precompiled.Proofs.Heap.Rules

/-! What an operation needs and what it leaves behind, said about its first and its
last state. In between, the surroundings may do to a heap what the operation puts
up with: if the engine does not call back this is next to nothing, since nobody but
the collector touches the heap until a question is answered. -/
namespace Precompiled.Heap

variable {α β : Type} {rely : State → State → Prop} {pre post : State → Prop}

/-- Only heap-object slots differ. -/
def State.Beside (before after : State) : Prop :=
  after = { before with objects := after.objects }

theorem State.Beside.refl (state : State) : state.Beside state :=
  rfl

theorem State.Beside.trans {first second third : State} (early : first.Beside second)
    (late : second.Beside third) : first.Beside third := by
  rw [State.Beside, late, early]

/-- What does not look at heap-object slots survives their changes. -/
theorem State.Beside.keeps {kept : State → Prop}
    (blind : ∀ state objects, kept state → kept { state with objects }) (before after : State)
    (holds : kept before) (onward : before.Beside after) : kept after := by
  rw [State.Beside] at onward
  rw [onward]
  exact blind before after.objects holds

/-- What the surroundings do to the heap of a cell. Counters and journal may change
at any time. -/
abbrev overState (rely : State → State → Prop) (before after : Cell) : Prop :=
  rely before.state after.state

/-- Only heap-object slots, counters and journal change while a question is open. -/
abbrev undisturbed : Cell → Cell → Prop :=
  overState State.Beside

/-- A property of the heap that no change and no question breaks is spared. -/
theorem spares_of {change : Engine.signature.Heard → State → State → Prop}
    {question : Engine.Request → State → State → Prop} {kept : State → Prop}
    (changed : ∀ heard before after, kept before → change heard before after → kept after)
    (asked : ∀ request before after, kept before → question request before after → kept after) :
    (stateConduct change question rely).Spares fun cell => kept cell.state := by
  refine ⟨?_, fun holds asks => asked _ _ _ holds asks⟩
  rintro heard before after holds (same | change)
  · rwa [same]
  · exact changed heard _ _ holds change

/-- Begun in a state with `pre`, and disturbed no more than `rely` says, the
operation ends with `post`. -/
def Attains (rely : State → State → Prop) (pre : State → Prop) (operation : Operation α)
    (post : α → State → Prop) : Prop :=
  ∀ heard cell, pre cell.state →
    (operation cell).Obeys (Conduct.free (overState rely))
      (fun _ result after => post result after.state)
      heard cell

/-- Begun in a state with `pre`, the undisturbed operation ends with `post`. -/
abbrev Ensures (pre : State → Prop) (operation : Operation α) (post : α → State → Prop) : Prop :=
  Attains State.Beside pre operation post

namespace Attains

variable {operation : Operation α} {next : α → Operation β} {middle : α → State → Prop}
  {final : β → State → Prop}

theorem pure {result : α → State → Prop} (value : α)
    (implies : ∀ state, pre state → result value state) :
    Attains rely pre (Pure.pure value : Operation α) result :=
  fun _ cell holds => ⟨.refl, implies cell.state holds⟩

theorem bind (first : Attains rely pre operation middle)
    (second : ∀ value, Attains rely (middle value) (next value) final) :
    Attains rely pre (operation >>= next) final :=
  fun heard cell holds => (first heard cell holds).bind fun later value after _ known =>
    second value later after known

theorem weaken {strong : State → Prop} {result : α → State → Prop}
    (ensures : Attains rely pre operation middle) (before : ∀ state, strong state → pre state)
    (after : ∀ value state, middle value state → result value state) :
    Attains rely strong operation result :=
  fun heard cell holds => (ensures heard cell (before _ holds)).weaken fun _ value cell _ known =>
    after value cell.state known

theorem of_stronger {strong : State → Prop} (ensures : Attains rely pre operation middle)
    (implies : ∀ state, strong state → pre state) : Attains rely strong operation middle :=
  ensures.weaken implies fun _ _ known => known

theorem to_weaker {result : α → State → Prop} (ensures : Attains rely pre operation middle)
    (implies : ∀ value state, middle value state → result value state) :
    Attains rely pre operation result :=
  ensures.weaken (fun _ holds => holds) implies

/-- What does not depend on the state may be used throughout. -/
theorem given {fact : Prop} (attains : fact → Attains rely pre operation middle) :
    Attains rely (fun state => pre state ∧ fact) operation middle :=
  fun heard cell holds => attains holds.2 heard cell holds.1

/-- Looking changes nothing. -/
theorem look (view : State → α) :
    Attains rely pre (Operation.look view) fun value state => pre state ∧ value = view state :=
  fun _ _ holds => ⟨.refl, holds, rfl⟩

/-- Looking at a known state tells what is known. -/
theorem look_at (view : State → α) (start : State) :
    Attains rely (fun state => state = start) (Operation.look view)
      fun value state => state = start ∧ value = view start := by
  rintro heard cell rfl
  exact ⟨.refl, rfl, rfl⟩

theorem alter {step : State → State} (implies : ∀ state, pre state → post (step state)) :
    Attains rely pre (Operation.alter step) fun _ => post :=
  fun _ cell holds => ⟨.single trivial, implies cell.state holds⟩

theorem note (level : Level) (topic : Topic) (text : String) :
    Attains rely pre (Operation.note level topic text) fun _ => pre :=
  fun _ _ holds => ⟨.single trivial, holds⟩

/-- What everything in keeping with a conduct preserves is preserved by an
operation that keeps to it. -/
theorem of_obeys {change : Engine.signature.Heard → State → State → Prop}
    {question : Engine.Request → State → State → Prop} {kept : State → Prop}
    (obeys : operation.Obeys (stateConduct change question rely)
      fun _ value cell => middle value cell.state)
    (relied : ∀ before after, kept before → rely before after → kept after)
    (changed : ∀ heard before after, kept before → change heard before after → kept after)
    (asked : ∀ request before after, kept before → question request before after → kept after) :
    Attains rely kept operation fun value state => middle value state ∧ kept state := by
  intro heard cell holds
  have keeps := (obeys heard cell).keeps (spares_of changed asked)
    (fun _ _ holds drifted => relied _ _ holds drifted) holds
  exact keeps.loosen (fun _ _ _ _ => trivial) (fun _ _ _ _ _ => trivial) fun _ _ drifted => drifted

theorem of_follows {change : Engine.signature.Heard → State → State → Prop}
    {question : Engine.Request → State → State → Prop} {kept : State → Prop}
    (follows : operation.Follows (stateConduct change question rely))
    (relied : ∀ before after, kept before → rely before after → kept after)
    (changed : ∀ heard before after, kept before → change heard before after → kept after)
    (asked : ∀ request before after, kept before → question request before after → kept after) :
    Attains rely kept operation fun _ => kept := by
  have ensures : Attains rely kept operation fun _ state => True ∧ kept state :=
    of_obeys follows relied changed asked
  exact ensures.to_weaker fun _ _ known => known.2

/-- Two ends that are ensured are ensured together. -/
theorem and {first second : α → State → Prop} (one : Attains rely pre operation first)
    (other : Attains rely pre operation second) :
    Attains rely pre operation fun value state => first value state ∧ second value state :=
  fun heard cell holds => (one heard cell holds).and (other heard cell holds)

end Attains

/-- An operation restores what it ensures inside larger surroundings, too. -/
theorem restores_lift {heard : surroundings.Heard} {before : Cell}
    {dialogue : Dialogue Engine.signature Cell α}
    (restores : Service.Restores (overState rely) (fun cell => post cell.state)
      (engineHeard heard) before dialogue) :
    Service.Restores (overState rely) (fun cell => post cell.state) heard before
      (dialogue.answeredBy fun request =>
        Action.ask (S := surroundings) (.engine request)) := by
  have lifted : ∀ {known : Engine.signature.Heard} {heard : surroundings.Heard}
      {before after : Cell},
      Relation.ReflTransGen ((Conduct.free (overState rely)).change known) before after →
      Relation.ReflTransGen ((Conduct.free (overState rely)).change heard) before after :=
    fun changes => Relation.ReflTransGen.mono (fun _ _ _ => trivial) _ _ changes
  induction dialogue generalizing heard before with
  | done result state => exact ⟨lifted restores.1, restores.2⟩
  | ask request state resume ih =>
    obtain ⟨⟨middle, changes, -⟩, resumed⟩ := restores
    refine ⟨⟨middle, lifted changes, trivial⟩, fun later answer after more told onward => ?_⟩
    exact ih answer after
      (resumed (engineHeard later) answer after (fun _ _ known => more _ _ known) told onward)

end Precompiled.Heap
