import Precompiled.Proofs.Heap.Heeding
import Precompiled.Proofs.Heap.Lifecycle
import Precompiled.Proofs.Heap.Provenance

/-! The gate in front of executable code. Compiled code calls routines of the engine. They
are looked up when the first class is matched, and either all of them are found or the heap
links nothing any more. Apart from that one pass no task touches the gate, and code is
installed only behind it. -/
namespace Precompiled.Heap

variable {image : Image} {view : ClassView} {entry : ClassEntry} {cell after : Cell}

/-- Whether the routines were linked, and whether one of them was missing. -/
structure Gate where
  routines : Option (List Nat)
  disabled : Bool

def State.gate (state : State) : Gate :=
  ⟨state.routines, state.linkageDisabled⟩

/-- Nobody has looked for the routines. -/
def Gate.untried : Gate :=
  ⟨none, false⟩

/-- The routines were found at these addresses. -/
def Gate.linked (addresses : List Nat) : Gate :=
  ⟨some addresses, false⟩

/-- A routine was missing. -/
def Gate.closed : Gate :=
  ⟨none, true⟩

/-! ## Work that leaves the gate alone -/

/-- Answers leave the gate as it is, and once the routines are linked so does everything
else. Code is installed only then. -/
def gating : Discipline surroundings Gate where
  effect question seen effect := effect = (fun _ now => now) ∧
    (∀ name, question ≠ .engine (.findRoutine name)) ∧
    ∀ code, question = .engine (.install code) → seen.routines.isSome
  rely seen now := seen.routines.isSome → now = seen

/-- All that an operation may do but look for routines. Whoever publishes has to know that
they are linked. -/
def Licence.behind (linked : Prop) : Licence :=
  ⟨linked, True, False⟩

theorem gating_suits (linked : Prop) :
    Suits image (.behind linked) gating State.gate fun seen => linked → seen.routines.isSome where
  keeps :=
    { relied := fun initial onward known => onward (initial known) ▸ initial known
      effected := fun ⟨same, _⟩ initial => same ▸ initial }
  blind linkless := by rw [linkless]; rfl
  plain _ plain := ⟨rfl, by cases plain <;> nofun, by cases plain <;> nofun⟩
  install permitted _ _ initial := ⟨rfl, nofun, fun _ _ => initial permitted⟩
  routine permitted := permitted.elim
  gate permitted := permitted.elim
  rewrite _ _ _ _ _ := rfl
  metaspace _ _ _ _ := ⟨_, ⟨rfl, nofun, nofun⟩, fun _ _ => rfl⟩
  metadata _ _ _ _ := ⟨_, ⟨rfl, nofun, nofun⟩, fun _ _ => rfl⟩
  object _ _ _ := ⟨_, ⟨rfl, nofun, nofun⟩, fun _ _ => rfl⟩

/-- A dialogue that leaves the gate alone. -/
abbrev Spares {α : Type} (seen : Gate) (dialogue : Dialogue surroundings Cell α) : Prop :=
  dialogue.Heeds gating (ofState State.gate) seen

/-- What looks for no routine and publishes nothing spares the gate. -/
theorem made_spares {α : Type} {operation : Operation α}
    (made : Made image (.behind False) operation) (cell : Cell) :
    Spares cell.state.gate (operation.lift cell) :=
  heeds_lift ((gating_suits False).made made cell False.elim)

/-- Behind the gate publishing does so as well. -/
theorem linked_spares {α : Type} {operation : Operation α}
    (made : Made image (.behind True) operation) {addresses : List Nat}
    (linked : cell.state.gate = .linked addresses) : Spares (.linked addresses) (operation.lift cell) := by
  have behind : True → cell.state.gate.routines.isSome := fun _ => by rw [linked]; rfl
  have spares : Spares cell.state.gate (operation.lift cell) :=
    heeds_lift ((gating_suits True).made made cell behind)
  rwa [linked] at spares

theorem resolveClass_gate {outcome : Except Miss ClassEntry}
    (ran : resolveClass image view cell = .done outcome after) :
    after.state.gate = cell.state.gate := by
  have made : Made image (.behind False) (resolveClass image view) := resolveClass_made trivial view
  have spares := made_spares made cell
  simp only [Operation.lift, Action.answeredBy, ran] at spares
  exact spares

/-- Publishing code that the heap holds installs nothing. -/
theorem publish_spares {code : LinkedCode} (held : cell.state.Holds code.codeId code) :
    Spares cell.state.gate ((Task.call (.publish code)).perform image cell) := by
  obtain ⟨slot, found, handle⟩ := held
  have publishing := perform_publish image code cell
  generalize (Task.call (.publish code)).perform image cell = dialogue at publishing
  cases publishing with
  | unknown => exact rfl
  | refused => exact rfl
  | made installed =>
    obtain ⟨⟨free, there, empty⟩, -⟩ := installed.taken
    obtain rfl : slot = free := Option.some.inj (found.symm.trans there)
    simp [handle] at empty

/-! ## The pass over the routines -/

/-- How a load goes on once it is known whether the routines are linked. -/
def finishLinked (image : Image) (view : ClassView) (entry : ClassEntry) :
    Bool → Operation (Except Miss Nat)
  | true =>
    match image.library.methodsOf entry.record with
    | .error error => do
      Operation.note .warn .classes s!"methods of {view.name}: {error.message}"
      return .ok 0
    | .ok records => do return .ok (← publishMethods image entry view records)
  | false => return .error .linkageDisabled

theorem finishLoad_ok : finishLoad image view (.ok entry) =
    ensureRoutines image >>= finishLinked image view entry := by
  funext cell
  simp only [finishLoad, Action.bind_apply]
  congr 1
  funext linked after
  cases linked with
  | false => rfl
  | true =>
    unfold finishLinked
    cases image.library.methodsOf entry.record <;> rfl

theorem finishLinked_made : Made image (.behind True) (finishLinked image view entry true) := by
  unfold finishLinked
  cases image.library.methodsOf entry.record with
  | error error => exact .bind (.note _ _ _) fun _ => .pure _
  | ok records => exact .bind (publishMethods_made trivial entry records) fun _ => .pure _

/-- How a load goes on with the outcome of the pass. -/
def finishPass (image : Image) (view : ClassView) (entry : ClassEntry) :
    Except Error (List Nat) → Operation (Except Miss Nat)
  | .ok addresses => do
    Operation.note .debug .loading
      s!"linked {addresses.length} runtime routines for {image.library.name}"
    Operation.alter fun state =>
      { state with routines := some (state.routines.getD addresses) }
    finishLinked image view entry true
  | .error error => do
    Operation.note .warn .loading s!"disabling {image.library.name}: {error.message}"
    Operation.alter fun state => { state with linkageDisabled := true }
    finishLinked image view entry false

/-- A dialogue that passes over the routines that are left, given the addresses of those
that were found. When one is missing, or none is left, the gate is settled. -/
def Passes {α : Type} (found : List Nat) : List String → Dialogue surroundings Cell α → Prop
  | [], dialogue => Spares (.linked found) dialogue
  | name :: rest, dialogue => ∃ (cell : Cell)
      (resume : Option Nat → Cell → Dialogue surroundings Cell α),
      dialogue = .ask (.engine (.findRoutine name)) cell resume ∧ cell.state.gate = .untried ∧
      ∀ after : Cell, after.state.gate = .untried → Spares .closed (resume none after) ∧
        ∀ address, Passes (found ++ [address]) rest (resume (some address) after)

/-- The address of a routine is put in front of those of the others. -/
theorem findRoutines_cons (name : String) (rest : List String) :
    findRoutines image (name :: rest) = (do
      let found ← Operation.ask (.findRoutine name)
      found.elim (pure (.error (.missingRoutine image.library.name name))) fun address => do
        let outcome ← findRoutines image rest
        pure (outcome.map fun addresses => address :: addresses)) := by
  funext cell
  refine congrArg (Dialogue.ask _ cell) (funext₂ fun found after => ?_)
  cases found with
  | none => rfl
  | some address =>
    refine congrArg (findRoutines image rest after).bind (funext₂ fun outcome later => ?_)
    cases outcome <;> rfl

/-- Looking for routines is a pass over them, if going on with the outcome settles the
gate. -/
theorem findRoutines_passes {α : Type} {names : List String} {found : List Nat}
    {next : Except Error (List Nat) → Operation α}
    (linked : ∀ addresses after, after.state.gate = .untried →
      Spares (.linked (found ++ addresses)) ((next (.ok addresses)).lift after))
    (missing : ∀ error after, after.state.gate = .untried →
      Spares .closed ((next (.error error)).lift after))
    (untried : cell.state.gate = .untried) :
    Passes found names ((findRoutines image names >>= next).lift cell) := by
  induction names generalizing found next cell with
  | nil =>
    have done := linked [] cell untried
    rw [List.append_nil] at done
    exact done
  | cons name rest ih =>
    rw [findRoutines_cons]
    refine ⟨cell, _, rfl, untried, fun after still => ⟨missing _ after still, fun address => ?_⟩⟩
    -- The addresses of the rest are put behind this one before the work goes on.
    let onward (outcome : Except Error (List Nat)) : Operation α :=
      next (outcome.map fun addresses => address :: addresses)
    have passes : Passes (found ++ [address]) rest
        ((findRoutines image rest >>= onward).lift after) := by
      refine ih (fun addresses later still => ?_) missing still
      have done := linked (address :: addresses) later still
      rwa [List.append_cons] at done
    have same : (findRoutines image rest >>= onward) after =
        ((findRoutines image rest >>= fun outcome =>
          pure (outcome.map fun addresses => address :: addresses)) >>= next) after := by
      simp only [Action.bind_apply, Dialogue.bind_assoc]
      rfl
    simp only [Operation.lift, Action.answeredBy] at passes
    rw [same] at passes
    exact passes

/-- With the addresses of all routines the gate is linked. -/
theorem finishPass_linked (addresses : List Nat) (untried : cell.state.gate = .untried) :
    Spares (.linked addresses) ((finishPass image view entry (.ok addresses)).lift cell) := by
  obtain ⟨none, enabled⟩ := Gate.mk.inj untried
  have linked : State.gate { cell.state with
      routines := some (cell.state.routines.getD addresses) } = .linked addresses := by
    simp [State.gate, Gate.linked, none, enabled]
  exact linked_spares finishLinked_made linked

/-- Without one of them it is closed. -/
theorem finishPass_missing (error : Error) (untried : cell.state.gate = .untried) :
    Spares .closed ((finishPass image view entry (.error error)).lift cell) := by
  obtain ⟨none, enabled⟩ := Gate.mk.inj untried
  have closed : State.gate { cell.state with linkageDisabled := true } = .closed := by
    simp [State.gate, Gate.closed, none]
  exact closed

/-! ## Tasks -/

/-- A load that matches its class before anybody has looked for the routines. -/
def Tries (image : Image) (task : Task) (cell : Cell) : Prop :=
  ∃ view entry after, task = .call (.loadClass view) ∧ cell.state.gate = .untried ∧
    resolveClass image view cell = .done (.ok entry) after

/-- Such a load goes on with the pass. -/
theorem loadClass_pass (untried : cell.state.gate = .untried)
    (ran : resolveClass image view cell = .done (.ok entry) after) :
    loadClass image view cell = (match image.library.routines with
      | .error error => finishPass image view entry (.error error)
      | .ok names => findRoutines image names >>= finishPass image view entry) after := by
  have same := resolveClass_gate ran
  obtain ⟨-, enabled⟩ := Gate.mk.inj untried
  obtain ⟨none, -⟩ := Gate.mk.inj (same.trans untried)
  rw [loadClass_enabled enabled ran, finishLoad_ok]
  simp only [ensureRoutines, linkRoutines, Operation.look, Action.bind_apply, Action.read_apply,
    Dialogue.bind_done, none, Option.isSome_none, Bool.false_eq_true, if_false]
  cases image.library.routines with
  | error error => rfl
  | ok names =>
    simp only [Action.bind_apply, Dialogue.bind_assoc]
    congr 1
    funext outcome later
    cases outcome <;> rfl

theorem tries_passes {task : Task} {names : List String} (tries : Tries image task cell)
    (known : image.library.routines = .ok names) : Passes [] names (task.perform image cell) := by
  obtain ⟨view, entry, after, rfl, untried, ran⟩ := tries
  have same := (resolveClass_gate ran).trans untried
  have passes : Passes [] names
      ((findRoutines image names >>= finishPass image view entry).lift after) :=
    findRoutines_passes (fun addresses _ => finishPass_linked addresses)
      (fun error _ => finishPass_missing error) same
  have ran := loadClass_pass untried ran
  rw [known] at ran
  simp only [Operation.lift, Action.answeredBy, ← ran] at passes
  exact passes

/-- If the names of the routines cannot be read the gate is closed at once. -/
theorem tries_closes {task : Task} {error : Error} (tries : Tries image task cell)
    (unknown : image.library.routines = .error error) :
    Spares .closed (task.perform image cell) := by
  obtain ⟨view, entry, after, rfl, untried, ran⟩ := tries
  have closes : Spares .closed ((finishPass image view entry (.error error)).lift after) :=
    finishPass_missing error ((resolveClass_gate ran).trans untried)
  have ran := loadClass_pass untried ran
  rw [unknown] at ran
  simp only [Operation.lift, Action.answeredBy, ← ran] at closes
  exact closes

/-- Every other load leaves the gate alone. -/
theorem loadClass_spares (idle : ¬Tries image (.call (.loadClass view)) cell) :
    Spares cell.state.gate ((Task.call (.loadClass view)).perform image cell) := by
  simp only [Task.perform, Heap.perform, Operation.lift, Action.answeredBy]
  cases disabled : cell.state.linkageDisabled with
  | true =>
    rw [loadClass_disabled disabled]
    exact rfl
  | false =>
    obtain ⟨outcome, after, ran⟩ := resolveClass_silent image view cell
    have same := resolveClass_gate ran
    rw [loadClass_enabled disabled ran, ← same]
    cases outcome with
    | error miss =>
      exact made_spares (.bind (afterMiss_made view miss) fun _ => .pure _) after
    | ok entry =>
      cases routines : cell.state.routines with
      | none =>
        have untried : cell.state.gate = .untried := by rw [State.gate, routines, disabled]; rfl
        exact absurd ⟨view, entry, after, rfl, untried, ran⟩ idle
      | some addresses =>
        have linked : after.state.gate = .linked addresses := by
          rw [same, State.gate, routines, disabled, Gate.linked]
        have known : after.state.routines = some addresses := congrArg Gate.routines linked
        have made : Made image (.behind True) (finishLinked image view entry true) :=
          finishLinked_made
        have spares := linked_spares made linked
        rw [finishLoad_ok]
        simp only [ensureRoutines, Operation.look, Action.bind_apply, Action.read_apply,
          Dialogue.bind_done, known, Option.isSome_some, if_true, linked]
        exact spares

/-- So does every other task, unless foreign code is published. -/
theorem task_spares {task : Task} (idle : ¬Tries image task cell)
    (native : ∀ code, task = .call (.publish code) → cell.state.Holds code.codeId code) :
    Spares cell.state.gate (task.perform image cell) := by
  have suits : Suits image (.behind False) gating State.gate _ := gating_suits False
  cases task with
  | call call =>
    cases call with
    | loadClass view => exact loadClass_spares idle
    | publish code => exact publish_spares (native code rfl)
    | _ => exact made_spares (perform_made ⟨False.elim, fun _ => trivial, False.elim⟩) cell
  | collect =>
    refine suits.collect ?_ cell False.elim
    intro state index object _ held
    exact ⟨_, ⟨rfl, nofun, nofun⟩, fun _ _ => rfl⟩
  | methods => exact suits.walk (.inl rfl) cell False.elim
  | metadata => exact suits.walk (.inr (.inl rfl)) cell False.elim
  | entries => exact suits.walk (.inr (.inr rfl)) cell False.elim

end Precompiled.Heap
