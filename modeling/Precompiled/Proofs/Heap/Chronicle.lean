import Precompiled.Proofs.Heap.Orderly

/-! What the past of a heap says about its slots. The chronicle holds at every
point of every course: states only grow, every handle belongs to a slot that was
resolved at some time, and code is installed at most once per slot. -/
namespace Precompiled.Heap

variable {heap : Heap} {image : Image} {before after state : State} {codeId : Nat} {slot : Slot}
  {code : LinkedCode}

/-! ## Handles -/

theorem retire_handle : slot.retire.2.handle = slot.handle := by
  unfold Slot.retire
  split <;> rfl

theorem invalidate_handle : slot.invalidate.2.handle = slot.handle := by
  unfold Slot.invalidate
  split
  · rfl
  · split <;> rfl

/-- A slot holds the given code, whatever its phase. -/
def State.Holds (state : State) (codeId : Nat) (code : LinkedCode) : Prop :=
  ∃ slot : Slot, state.slots[codeId]? = some slot ∧ slot.handle = some code

/-- Code that is executable is held. -/
theorem holds_of_executable (executable : state.executable? codeId = some code) :
    state.Holds codeId code ∧ state.phase? codeId = some .resolved := by
  obtain ⟨slot, found, resolved, held⟩ := executable?_some.mp executable
  exact ⟨⟨slot, found, held⟩, by simp [State.phase?, found, resolved]⟩

theorem State.Grows.holds (grows : before.Grows after) (holds : before.Holds codeId code) :
    after.Holds codeId code := by
  obtain ⟨slot, found, held⟩ := holds
  obtain ⟨later, there, grown⟩ := grows.slots codeId slot found
  exact ⟨later, there, grown.handle code held⟩

/-- In an orderly state only installing brings a new handle. -/
theorem State.Touches.inherits (touches : before.Touches after) (orderly : before.Orderly)
    (holds : after.Holds codeId code) : before.Holds codeId code := by
  obtain ⟨there, placed, held⟩ := holds
  cases touches with
  | none same => exact ⟨there, same ▸ placed, held⟩
  | @one codeId slot later found touch changed =>
    rw [changed] at placed
    rcases set_slot placed with ⟨rfl, rfl⟩ | ⟨-, elsewhere⟩
    · refine ⟨slot, found, ?_⟩
      cases touch with
      | retire => exact retire_handle ▸ held
      | invalidate => exact invalidate_handle ▸ held
      | count => exact held
      | stray code resolved free =>
        obtain ⟨code, taken⟩ := (orderly _ _ found).resolved resolved
        simp [free] at taken
    · exact ⟨there, elsewhere, held⟩

/-- Installing brings its own code and no other. -/
theorem Install.inherits (installed : Install image code before after) {other : Nat}
    {taken : LinkedCode} (holds : after.Holds other taken) :
    other = code.codeId ∧ taken = code ∨ before.Holds other taken := by
  obtain ⟨slot, there, held⟩ := holds
  cases installed with
  | @slot own found unresolved free =>
    obtain ⟨old, placed, -, handle⟩ := admitCode_slot there
    rw [handle] at held
    rcases set_slot placed with ⟨rfl, rfl⟩ | ⟨-, elsewhere⟩
    · obtain ⟨phase, empty, admitted⟩ := own
      cases (unresolved : phase = .unresolved)
      cases (free : empty = none)
      exact .inl ⟨rfl, (Option.some.inj held).symm⟩
    · exact .inr ⟨old, elsewhere, held⟩

/-- After a stub was put into its slot the slot is not free. -/
theorem settle_holds {stub : LinkedCode} (inside : stub.codeId < state.slots.length) :
    ∃ code, (settle image state stub).Holds stub.codeId code := by
  have found : state.slots[stub.codeId]? = some state.slots[stub.codeId] :=
    List.getElem?_eq_getElem inside
  unfold settle
  simp only [found]
  by_cases free : state.slots[stub.codeId].handle = none
  · have stored : (state.slots[stub.codeId].publishStub stub).2.handle = some stub := by
      simp [Slot.publishStub, free]
    have there : State.Holds { state with
        slots := state.slots.set stub.codeId ((state.slots[stub.codeId].publishStub stub).2) }
        stub.codeId stub := ⟨_, List.getElem?_set_self inside, stored⟩
    simp only [free, if_true]
    exact ⟨stub, (admitCode_touches image stub _).grows.holds there⟩
  · obtain ⟨code, held⟩ := Option.ne_none_iff_exists'.mp free
    simp only [free, if_false]
    exact ⟨code, _, found, held⟩

theorem Settles.grows {records : List Blob.CodeRecord} (settles : Settles image records before after) :
    before.Grows after := by
  induction settles with
  | refl => exact .refl before
  | tail _ step ih =>
    obtain ⟨record, -, stub, -, installed⟩ := step
    exact ih.trans installed.grows

/-- After the stubs of records were put into slots none of their slots is
free. -/
theorem settleAll_holds {records : List Blob.CodeRecord} {record : Blob.CodeRecord}
    {stub : LinkedCode} (pristine : before.Pristine)
    (settled : settleAll image before records = .ok after) (member : record ∈ records)
    (coded : stubCode image record = .ok stub) (inside : stub.codeId < before.slots.length) :
    ∃ code, after.Holds stub.codeId code := by
  induction records generalizing before with
  | nil => cases member
  | cons first rest ih =>
    rw [settleAll, List.foldlM_cons] at settled
    obtain ⟨middle, placed, onward⟩ := Outcome.bind_ok.mp settled
    obtain ⟨other, found, rfl⟩ := Outcome.map_ok.mp placed
    obtain ⟨grown, kept⟩ : before.Grows (settle image before other) ∧
        (settle image before other).Pristine := by
      rcases settle_installs pristine other with same | installed
      · rw [same]
        exact ⟨.refl _, pristine⟩
      · exact ⟨installed.grows, pristine.install (stubCode_isStub found) installed⟩
    rcases List.mem_cons.mp member with rfl | later
    · obtain rfl := Except.ok.inj (coded.symm.trans found)
      obtain ⟨code, holds⟩ : ∃ code, (settle image before stub).Holds stub.codeId code :=
        settle_holds inside
      have settles := (settleAll_settles (fun _ among => among) kept onward).1
      exact ⟨code, settles.grows.holds holds⟩
    · exact ih kept onward later (by rw [grown.count]; exact inside)

/-! ## The chronicle of a heap -/

abbrev Past (image : Image) : Type :=
  List (service image).Moment

/-- The states of a heap at the moments of the past and at its beginning, the
latest first. -/
def earlier (heap : Heap) (past : Past heap.image) : List State :=
  past.map (fun moment => moment.state.state) ++ [heap.state]

@[simp] theorem earlier_cons (heap : Heap) (moment : (service heap.image).Moment)
    (past : Past heap.image) :
    earlier heap (moment :: past) = moment.state.state :: earlier heap past := rfl

/-- The states of a heap that were and are, the latest first. -/
def history (heap : Heap) (course : (service heap.image).Course) : List State :=
  course.state.state :: earlier heap course.past

/-- The engine is told to install code of a code id. -/
def installs (image : Image) (codeId : Nat) : (service image).Event → Bool
  | .asked _ (.engine (.install code)) => code.codeId == codeId
  | _ => false

/-- How often that happened in the past. -/
def installCount (past : Past image) (codeId : Nat) : Nat :=
  past.countP fun moment => installs image codeId moment.event

theorem installCount_cons (moment : (service image).Moment) (past : Past image) (codeId : Nat) :
    installCount (moment :: past) codeId =
      installCount past codeId + if installs image codeId moment.event then 1 else 0 :=
  List.countP_cons

theorem installs_plain {task : Task} {question : Question}
    (plain : ∀ code, question ≠ .engine (.install code)) (codeId : Nat) :
    installs image codeId (.asked task question) = false := by
  unfold installs
  split
  · rename_i same
    cases same
    exact absurd rfl (plain _)
  · rfl

/-- A walk shows a method that is alive when it is shown. -/
theorem shown_alive (asked : Task.Ask image .methods (.method code) before after) :
    ∃ codeId, after.lookup codeId = some code := by
  cases asked with
  | visitor shown =>
    cases shown with
    | method alive walking => exact ⟨_, alive⟩

/-- What the past of a heap says about its slots. -/
structure Chronicle (heap : Heap) (past : Past heap.image) (state : State) : Prop where
  orderly : state.Orderly
  formerly : ∀ old ∈ earlier heap past, old.Orderly
  since : ∀ old ∈ earlier heap past, old.Grows state
  grown : (earlier heap past).Pairwise fun late old => old.Grows late
  resolved : ∀ codeId code, state.Holds codeId code →
    ∃ old ∈ earlier heap past, old.phase? codeId = some .resolved
  installed : ∀ codeId, installCount past codeId ≤ 1
  taken : ∀ codeId, 0 < installCount past codeId →
    ∃ code, state.Holds codeId code
  shown : ∀ moment ∈ past, ∀ code, moment.event = .asked .methods (.method code) →
    ∃ codeId, moment.state.state.lookup codeId = some code

namespace Chronicle

variable {past : Past heap.image}

/-- The beginning of a heap. -/
theorem begin (pristine : heap.state.Pristine) : Chronicle heap [] heap.state where
  orderly codeId slot found := (pristine codeId slot found).orderly
  formerly old among := by
    obtain rfl : old = heap.state := by simpa [earlier] using among
    exact fun codeId slot found => (pristine codeId slot found).orderly
  since old among := by
    obtain rfl : old = heap.state := by simpa [earlier] using among
    exact .refl _
  grown := by simp [earlier]
  resolved codeId code holds := by
    obtain ⟨slot, found, held⟩ := holds
    refine ⟨heap.state, by simp [earlier], ?_⟩
    simp [State.phase?, found, ((pristine codeId slot found).stub code held).1]
  installed := by simp [installCount]
  taken := by simp [installCount]
  shown := by simp

/-- Touching slots keeps the chronicle right. -/
theorem touches (chronicle : Chronicle heap past before) (touches : before.Touches after) :
    Chronicle heap past after where
  orderly := chronicle.orderly.touches touches
  formerly := chronicle.formerly
  since old among := (chronicle.since old among).trans touches.grows
  grown := chronicle.grown
  resolved codeId code holds :=
    chronicle.resolved codeId code (touches.inherits chronicle.orderly holds)
  installed := chronicle.installed
  taken codeId some := by
    obtain ⟨code, holds⟩ := chronicle.taken codeId some
    exact ⟨code, touches.grows.holds holds⟩
  shown := chronicle.shown

/-- Another moment enters the chronicle, unless it is one of installing. -/
theorem note (chronicle : Chronicle heap past state) {event : (service heap.image).Event}
    {cell : Cell} (same : cell.state = state) (plain : ∀ codeId, installs heap.image codeId event = false)
    (shown : ∀ code, event = .asked .methods (.method code) →
      ∃ codeId, state.lookup codeId = some code) :
    Chronicle heap (⟨event, cell⟩ :: past) state where
  orderly := chronicle.orderly
  formerly := by
    simpa [same] using ⟨chronicle.orderly, chronicle.formerly⟩
  since := by
    simpa [same] using ⟨State.Grows.refl state, chronicle.since⟩
  grown := by
    simpa [same] using ⟨chronicle.since, chronicle.grown⟩
  resolved codeId code holds := by
    obtain ⟨old, among, was⟩ := chronicle.resolved codeId code holds
    exact ⟨old, List.mem_cons_of_mem _ among, was⟩
  installed codeId := by simpa [installCount_cons, plain codeId] using chronicle.installed codeId
  taken codeId := by simpa [installCount_cons, plain codeId] using chronicle.taken codeId
  shown moment among code said := by
    cases among with
    | head => exact same ▸ shown code said
    | tail _ among => exact chronicle.shown moment among code said

/-- A moment of installing enters the chronicle. The slot was free before, so it
is the first one. -/
theorem install (chronicle : Chronicle heap past before) {task : Task} {cell : Cell}
    (installed : Install heap.image code before cell.state) :
    Chronicle heap (⟨.asked task (.engine (.install code)), cell⟩ :: past) cell.state := by
  obtain ⟨⟨slot, found, free⟩, final, there, resolved, held⟩ := installed.taken
  have first : installCount past code.codeId = 0 := by
    refine Nat.eq_zero_of_not_pos fun some => ?_
    obtain ⟨code, own, present, taken⟩ := chronicle.taken _ some
    obtain rfl : slot = own := Option.some.inj (found.symm.trans present)
    simp [free] at taken
  refine
    { orderly := chronicle.orderly.install installed
      formerly := ?_
      since := ?_
      grown := ?_
      resolved := ?_
      installed := ?_
      taken := ?_
      shown := ?_ }
  · simpa using ⟨chronicle.orderly.install installed, chronicle.formerly⟩
  · have onward := fun old among => (chronicle.since old among).trans installed.grows
    simpa using ⟨State.Grows.refl cell.state, onward⟩
  · have onward := fun old among => (chronicle.since old among).trans installed.grows
    simpa using ⟨onward, chronicle.grown⟩
  · intro other taken holds
    rcases installed.inherits holds with ⟨rfl, -⟩ | holds
    · exact ⟨cell.state, List.mem_cons_self, by simp [State.phase?, there, resolved]⟩
    · obtain ⟨state, among, phase⟩ := chronicle.resolved other taken holds
      exact ⟨state, List.mem_cons_of_mem _ among, phase⟩
  · intro other
    by_cases same : code.codeId = other
    · subst same
      simp [installCount_cons, installs, first]
    · have plain : (code.codeId == other) = false := by simpa using same
      simpa [installCount_cons, installs, plain] using chronicle.installed other
  · intro other some
    by_cases same : code.codeId = other
    · subst same
      exact ⟨code, final, there, held⟩
    · have plain : (code.codeId == other) = false := by simpa using same
      obtain ⟨taken, holds⟩ :=
        chronicle.taken other (by simpa [installCount_cons, installs, plain] using some)
      exact ⟨taken, installed.grows.holds holds⟩
  · intro moment among shown said
    cases among with
    | head => cases said
    | tail _ among => exact chronicle.shown moment among shown said

/-- The customs of a heap preserve its chronicle. -/
theorem preserved : (customs heap.image State.Grows).Preserves (fun _ => True)
    fun past cell => Chronicle heap past cell.state where
  changed _ chronicle change := by
    rcases change with same | change
    · exact chronicle.touches (.none (by rw [same]))
    · exact chronicle.touches change.touches
  asked _ chronicle asked := by
    rcases asked.touches with ⟨touches, plain⟩ | ⟨code, rfl, installed⟩
    · refine (chronicle.touches touches).note rfl (installs_plain plain) ?_
      rintro code ⟨⟩
      exact shown_alive asked
    · exact chronicle.install installed
  called _ chronicle := chronicle.note rfl (fun _ => rfl) nofun
  answered _ chronicle := chronicle.note rfl (fun _ => rfl) nofun
  replied _ chronicle _ := chronicle.note rfl (fun _ => rfl) nofun
  drifted chronicle drifted := chronicle.touches (.none (by rw [drifted]))

/-- A handle is there exactly if its slot was resolved at some time. -/
theorem present {course : (service heap.image).Course}
    (chronicle : Chronicle heap course.past course.state.state) (codeId : Nat) :
    (∃ code, course.state.state.Holds codeId code) ↔
      ∃ state ∈ history heap course, state.phase? codeId = some .resolved := by
  constructor
  · rintro ⟨code, holds⟩
    obtain ⟨old, among, resolved⟩ := chronicle.resolved codeId code holds
    exact ⟨old, List.mem_cons_of_mem _ among, resolved⟩
  · rintro ⟨old, among, resolved⟩
    obtain ⟨slot, found, phase⟩ := Option.map_eq_some_iff.mp resolved
    rcases List.mem_cons.mp among with rfl | among
    · obtain ⟨code, held⟩ := (chronicle.orderly codeId slot found).resolved phase
      exact ⟨code, slot, found, held⟩
    · obtain ⟨code, held⟩ := (chronicle.formerly old among codeId slot found).resolved phase
      exact ⟨code, (chronicle.since old among).holds ⟨slot, found, held⟩⟩

end Chronicle

/-- The chronicle holds at every point of every course. -/
theorem Reaches.chronicle {admits : (service heap.image).Course → Task → Prop}
    {course : (service heap.image).Course} (pristine : heap.state.Pristine)
    (reached : Reaches heap admits course) : Chronicle heap course.past course.state.state := by
  obtain ⟨counters, journal, reached⟩ := reached
  exact Service.Reaches.holding (customs_kept fun _ => True) Chronicle.preserved.sustains
    (fun _ _ _ => trivial) (Chronicle.begin pristine) reached

end Precompiled.Heap
