import Precompiled.Proofs.Heap.Customs

/-! What only ever grows in a heap. A phase moves in one direction, a handle is
kept for good, admitted code stays admitted, and stubs stay executable. Every
change of every task respects this, so it relates any two moments of a course. -/
namespace Precompiled

namespace Slot

/-- The moves of a slot between phases, and staying where it is. -/
inductive Phase.Leads : Phase → Phase → Prop where
  | stay (phase : Phase) : Leads phase phase
  | resolve : Leads .unresolved .resolved
  | retire : Leads .unresolved .invalidated
  | revoke : Leads .resolved .invalidated

theorem Phase.Leads.trans {first second third : Phase} (early : first.Leads second)
    (late : second.Leads third) : first.Leads third := by
  cases early with
  | stay => exact late
  | resolve =>
    cases late with
    | stay => exact .resolve
    | revoke => exact .retire
  | retire =>
    cases late
    exact .retire
  | revoke =>
    cases late
    exact .revoke

theorem Phase.Leads.final {phase : Phase} (leads : Phase.invalidated.Leads phase) :
    phase = .invalidated := by
  cases leads
  rfl

/-- What is kept when a slot changes. -/
structure Grows (before after : Slot) : Prop where
  phase : before.phase.Leads after.phase
  handle : ∀ code, before.handle = some code → after.handle = some code
  admitted : before.admitted = true → after.admitted = true
  stub : ∀ code, before.handle = some code → code.isStub → before.phase = .resolved →
    after.phase = .resolved

theorem Grows.refl (slot : Slot) : slot.Grows slot :=
  ⟨.stay _, fun _ held => held, fun admitted => admitted, fun _ _ _ resolved => resolved⟩

theorem Grows.trans {first second third : Slot} (early : first.Grows second)
    (late : second.Grows third) : first.Grows third where
  phase := early.phase.trans late.phase
  handle code held := late.handle code (early.handle code held)
  admitted was := late.admitted (early.admitted was)
  stub code held isStub resolved :=
    late.stub code (early.handle code held) isStub (early.stub code held isStub resolved)

variable {slot : Slot}

/-- Publishing keeps the handle that is there, and what was invalidated. -/
theorem grows_publish (code : LinkedCode) : slot.Grows (slot.publish code).2 := by
  obtain ⟨phase, handle, admitted⟩ := slot
  cases phase with
  | invalidated => exact .refl _
  | unresolved =>
    cases handle with
    | none => exact ⟨.resolve, nofun, fun was => was, nofun⟩
    | some other => exact .refl _
  | resolved =>
    cases handle with
    | none => exact ⟨.stay _, nofun, fun was => was, nofun⟩
    | some winner => exact .refl _

theorem grows_invalidate : slot.Grows slot.invalidate.2 := by
  obtain ⟨phase, handle, admitted⟩ := slot
  unfold invalidate
  split
  · exact .refl _
  · rename_i method
    have never : ∀ code, handle = some code → code.isStub = true → False := by
      rintro code rfl isStub
      exact method isStub
    cases phase with
    | unresolved =>
      exact ⟨.retire, fun _ held => held, fun was => was, fun code held isStub _ =>
        (never code held isStub).elim⟩
    | resolved =>
      exact ⟨.revoke, fun _ held => held, fun was => was, fun code held isStub _ =>
        (never code held isStub).elim⟩
    | invalidated => exact .refl _

theorem grows_retire : slot.Grows slot.retire.2 := by
  unfold retire
  split
  · rename_i unresolved
    refine ⟨?_, fun _ held => held, fun was => was, fun _ _ _ resolved => ?_⟩
    · simpa [unresolved] using Phase.Leads.retire
    · simp [unresolved] at resolved
  · exact .refl _

theorem grows_admitted : slot.Grows slot.markAdmitted.2 :=
  ⟨.stay _, fun _ held => held, fun _ => rfl, fun _ _ _ resolved => resolved⟩

end Slot

namespace Heap

/-! ## States -/

/-- What a slot of a table is after one slot was replaced. -/
theorem set_slot {slots : List Slot} {codeId other : Nat} {later slot : Slot}
    (there : (slots.set codeId later)[other]? = some slot) :
    other = codeId ∧ slot = later ∨ other ≠ codeId ∧ slots[other]? = some slot := by
  by_cases same : codeId = other
  · subst same
    rw [List.getElem?_set_self'] at there
    obtain ⟨_, -, rfl⟩ := Option.map_eq_some_iff.mp there
    exact .inl ⟨rfl, rfl⟩
  · rw [List.getElem?_set_ne same] at there
    exact .inr ⟨Ne.symm same, there⟩

/-- Every slot of the one state has grown into the one of the other. -/
structure State.Grows (before after : State) : Prop where
  count : after.slots.length = before.slots.length
  slots : ∀ (codeId : Nat) (slot : Slot), before.slots[codeId]? = some slot →
    ∃ later : Slot, after.slots[codeId]? = some later ∧ slot.Grows later

namespace State.Grows

variable {first second third state : State}

theorem of_slots (same : second.slots = first.slots) : first.Grows second where
  count := by rw [same]
  slots codeId slot found := ⟨slot, by rw [same, found], .refl slot⟩

theorem refl (state : State) : state.Grows state :=
  of_slots rfl

theorem trans (early : first.Grows second) (late : second.Grows third) : first.Grows third where
  count := late.count.trans early.count
  slots codeId slot found := by
    obtain ⟨middle, there, grown⟩ := early.slots codeId slot found
    obtain ⟨last, present, onward⟩ := late.slots codeId middle there
    exact ⟨last, present, grown.trans onward⟩

/-- Every slot of the later state grew out of one of the earlier state. -/
theorem origin (grows : first.Grows second) {codeId : Nat} {slot : Slot}
    (there : second.slots[codeId]? = some slot) :
    ∃ old : Slot, first.slots[codeId]? = some old ∧ old.Grows slot := by
  obtain ⟨inside, -⟩ := List.getElem?_eq_some_iff.mp there
  have found := List.getElem?_eq_getElem (grows.count ▸ inside)
  obtain ⟨later, present, grown⟩ := grows.slots codeId _ found
  obtain rfl : slot = later := Option.some.inj (there.symm.trans present)
  exact ⟨_, found, grown⟩

/-- What was invalidated stays so. -/
theorem phase_final {codeId : Nat} (grows : first.Grows second)
    (gone : first.phase? codeId = some .invalidated) :
    second.phase? codeId = some .invalidated := by
  obtain ⟨slot, found, phase⟩ := Option.map_eq_some_iff.mp gone
  obtain ⟨later, there, grown⟩ := grows.slots codeId slot found
  have final : later.phase = .invalidated := (phase ▸ grown.phase).final
  rw [State.phase?, there, Option.map_some, final]

/-- What is resolved now was so before, or was not linked yet. -/
theorem resolved_from {codeId : Nat} (grows : first.Grows second)
    (resolved : second.phase? codeId = some .resolved) :
    first.phase? codeId = some .unresolved ∨ first.phase? codeId = some .resolved := by
  obtain ⟨slot, there, phase⟩ := Option.map_eq_some_iff.mp resolved
  obtain ⟨old, found, grown⟩ := grows.origin there
  have leads := grown.phase
  rw [phase] at leads
  rw [State.phase?, found, Option.map_some]
  cases earlier : old.phase with
  | unresolved => exact .inl rfl
  | resolved => exact .inr rfl
  | invalidated =>
    rw [earlier] at leads
    cases leads

/-- A state grows if the one slot that changes does. -/
theorem set {codeId : Nat} {slot later : Slot} (found : state.slots[codeId]? = some slot)
    (grown : slot.Grows later) :
    state.Grows { state with slots := state.slots.set codeId later } where
  count := by simp
  slots other old there := by
    by_cases same : codeId = other
    · subst same
      obtain ⟨bound, -⟩ := List.getElem?_eq_some_iff.mp found
      obtain rfl : slot = old := Option.some.inj (found.symm.trans there)
      exact ⟨later, List.getElem?_set_self bound, grown⟩
    · exact ⟨old, by rw [List.getElem?_set_ne same, there], .refl old⟩

end State.Grows

/-! ## What happens to slots -/

/-- What a slot goes through apart from receiving its code. -/
inductive Touch : Slot → Slot → Prop where
  | retire (slot : Slot) : Touch slot slot.retire.2
  | invalidate (slot : Slot) : Touch slot slot.invalidate.2
  | count (slot : Slot) : Touch slot slot.markAdmitted.2
  | stray {slot : Slot} (code : LinkedCode) (resolved : slot.phase = .resolved)
    (free : slot.handle = none) : Touch slot (slot.publish code).2

/-- At most one slot is touched. -/
inductive State.Touches (before after : State) : Prop where
  | none (same : after.slots = before.slots) : Touches before after
  | one {codeId : Nat} {slot later : Slot} (found : before.slots[codeId]? = some slot)
    (touch : Touch slot later) (changed : after.slots = before.slots.set codeId later) :
    Touches before after

section Changes

variable {image : Image} {before after state : State} {code : LinkedCode}

theorem claimPlace_slots (entry : ClassEntry) (view : ClassView) (state : State) :
    (claimPlace entry view state).2.slots = state.slots := by
  have bound : (state.bindLoader entry.classId view.loader).2.slots = state.slots := by
    unfold State.bindLoader
    split <;> rfl
  unfold claimPlace
  split
  · rfl
  · split
    · rfl
    · dsimp only
      split
      · exact bound
      · exact bound

theorem admitCode_touches (image : Image) (code : LinkedCode) (state : State) :
    state.Touches (state.admitCode image code).2 := by
  unfold State.admitCode
  split
  · exact .none rfl
  · split
    · exact .none rfl
    · rename_i slot found
      split
      · exact .none rfl
      · exact .one found (.count slot) rfl

/-- Admitting code changes neither phases nor handles. -/
theorem admitCode_slot {codeId : Nat} {slot : Slot}
    (there : (state.admitCode image code).2.slots[codeId]? = some slot) :
    ∃ old, state.slots[codeId]? = some old ∧ slot.phase = old.phase ∧ slot.handle = old.handle := by
  unfold State.admitCode at there
  split at there
  · exact ⟨slot, there, rfl, rfl⟩
  · split at there
    · exact ⟨slot, there, rfl, rfl⟩
    · rename_i own found
      split at there
      · exact ⟨slot, there, rfl, rfl⟩
      · rcases set_slot there with ⟨rfl, rfl⟩ | ⟨-, elsewhere⟩
        · exact ⟨own, found, rfl, rfl⟩
        · exact ⟨slot, elsewhere, rfl, rfl⟩

theorem Revoke.touches (revoked : Revoke before after) : before.Touches after := by
  cases revoked with
  | retire found => exact .one found (.retire _) rfl
  | invalidate found idle => exact .one found (.invalidate _) rfl

theorem Link.touches {source : LinkedCode → Prop} {heard : Engine.signature.Heard}
    (linked : Link image source heard before after) : before.Touches after := by
  cases linked with
  | fill filled => cases filled <;> exact .none rfl
  | stray known found resolved free => exact .one found (.stray _ resolved free) rfl

theorem Change.touches {call : Call} {heard : Engine.signature.Heard}
    (change : Change image call heard before after) : before.Touches after := by
  cases change with
  | link linked => exact linked.touches
  | revoke revoked => exact revoked.touches
  | refuse fits taken => exact .none (claimPlace_slots _ _ _)
  | bind presented fits unbound claimed => exact .none (claimPlace_slots _ _ _)
  | relocate collected relocated =>
    cases relocated
    exact .none rfl
  | count given => exact admitCode_touches _ _ _
  | unbind gone => exact .none rfl
  | drop gone dropped =>
    cases dropped
    exact .none rfl
  | routines addresses => exact .none rfl
  | disable => exact .none rfl

/-- Without a question no slot receives its code. -/
theorem Task.Change.touches {task : Task} {heard : surroundings.Heard}
    (change : Task.Change image task heard before after) : before.Touches after := by
  cases change with
  | call change => exact Heap.Change.touches change
  | collect relocated =>
    cases relocated
    exact .none rfl

/-- The only question that comes with code for a slot is the one to install
it. -/
theorem Ask.touches {source : LinkedCode → Prop} {request : Engine.Request}
    (asked : Ask image source request before after) :
    (before.Touches after ∧ ∀ code, request ≠ .install code) ∨
      ∃ code, request = .install code ∧ source code ∧ Install image code before after := by
  cases asked with
  | install known installed => exact .inr ⟨_, rfl, known, installed⟩
  | deoptimize deoptimized =>
    cases deoptimized with
    | slot found executable method => exact .inl ⟨.one found (.invalidate _) rfl, nofun⟩
  | _ => exact .inl ⟨.none rfl, nofun⟩

theorem Show.same {task : Task} {question : Question} (shown : Show task question before after) :
    after = before := by
  cases shown <;> rfl

theorem Task.Ask.touches {task : Task} {question : Question}
    (asked : Task.Ask image task question before after) :
    (before.Touches after ∧ ∀ code, question ≠ .engine (.install code)) ∨
      ∃ code, question = .engine (.install code) ∧ Install image code before after := by
  cases asked with
  | visitor shown => cases shown <;> exact .inl ⟨.none rfl, nofun⟩
  | engine asked =>
    rcases Heap.Ask.touches asked with ⟨touches, plain⟩ | ⟨code, rfl, -, installed⟩
    · refine .inl ⟨touches, ?_⟩
      rintro code ⟨⟩
      exact plain code rfl
    · exact .inr ⟨code, rfl, installed⟩

/-! ## Growth -/

theorem Touch.grows {slot later : Slot} (touch : Touch slot later) : slot.Grows later := by
  cases touch with
  | retire => exact Slot.grows_retire
  | invalidate => exact Slot.grows_invalidate
  | count => exact Slot.grows_admitted
  | stray code resolved free => exact Slot.grows_publish code

theorem State.Touches.grows (touches : before.Touches after) : before.Grows after := by
  cases touches with
  | none same => exact .of_slots same
  | one found touch changed => exact (State.Grows.set found touch.grows).trans (.of_slots changed)

theorem Install.grows (installed : Install image code before after) : before.Grows after := by
  cases installed with
  | slot found unresolved free =>
    exact (State.Grows.set found (Slot.grows_publish code)).trans
      (admitCode_touches image code _).grows

/-- Installing puts the code into its slot, which was free. -/
theorem Install.taken (installed : Install image code before after) :
    (∃ slot : Slot, before.slots[code.codeId]? = some slot ∧ slot.handle = none) ∧
      ∃ slot : Slot, after.slots[code.codeId]? = some slot ∧ slot.phase = .resolved ∧
        slot.handle = some code := by
  cases installed with
  | @slot slot found unresolved free =>
    refine ⟨⟨slot, found, free⟩, ?_⟩
    obtain ⟨phase, handle, admitted⟩ := slot
    cases (unresolved : phase = .unresolved)
    cases (free : handle = none)
    obtain ⟨bound, -⟩ := List.getElem?_eq_some_iff.mp found
    have published : (before.slots.set code.codeId
        (Slot.publish code ⟨.unresolved, none, admitted⟩).2)[code.codeId]? =
          some ⟨.resolved, some code, admitted⟩ := List.getElem?_set_self bound
    have grown := (admitCode_touches image code
      { before with
        slots := before.slots.set code.codeId (Slot.publish code ⟨.unresolved, none, admitted⟩).2 }).grows
    obtain ⟨later, there, -⟩ := grown.slots code.codeId _ published
    obtain ⟨old, same, phase, handle⟩ := admitCode_slot there
    obtain rfl := Option.some.inj (published.symm.trans same)
    exact ⟨later, there, phase, handle⟩

theorem Ask.grows {source : LinkedCode → Prop} {request : Engine.Request}
    (asked : Ask image source request before after) : before.Grows after := by
  rcases asked.touches with ⟨touches, -⟩ | ⟨code, -, -, installed⟩
  · exact touches.grows
  · exact installed.grows

theorem Task.Ask.grows {task : Task} {question : Question}
    (asked : Task.Ask image task question before after) : before.Grows after := by
  rcases asked.touches with ⟨touches, -⟩ | ⟨code, -, installed⟩
  · exact touches.grows
  · exact installed.grows

/-- The customs of a heap, where everybody may rely on growth. -/
theorem customs_kept (allowed : Task → Prop) : (customs image State.Grows).Kept allowed where
  performed task _ := task_follows task
  steady cell := .refl cell.state
  lasting early late := early.trans late
  changed _ change := by
    rcases change with same | change
    · exact .of_slots (by rw [same])
    · exact change.touches.grows
  asked _ asked := asked.grows
  drifted drifted := .of_slots (by rw [drifted])

/-- States keep growing. -/
theorem grows_preserved (start : State) : (customs image State.Grows).Preserves (fun _ => True)
    fun _ cell => start.Grows cell.state where
  changed _ since change := by
    rcases change with same | change
    · rwa [same]
    · exact since.trans change.touches.grows
  asked _ since asked := since.trans asked.grows
  called _ since := since
  answered _ since := since
  replied _ since _ := since
  drifted since drifted := by rwa [drifted]

end Changes

/-- From any moment of a course on states grow, whatever is begun from then on. -/
theorem Reaches.grows {heap : Heap} {admits other : (service heap.image).Course → Task → Prop}
    {course later : (service heap.image).Course} (reached : Reaches heap admits course)
    (onward : Relation.ReflTransGen (Service.Step other) course later) :
    course.state.state.Grows later.state.state := by
  obtain ⟨counters, journal, reached⟩ := reached
  have kept : (customs heap.image State.Grows).Kept fun _ => True := customs_kept _
  have sound := reached.sound kept.toBorne (grows_preserved heap.state).sustains
    (kept.begins fun _ _ _ _ => trivial) (.refl heap.state)
  exact ((sound.rebase (.refl course.state.state)).steps kept.toBorne
    (grows_preserved course.state.state).sustains (kept.begins fun _ _ _ _ => trivial) onward).holding

end Heap

end Precompiled
