import Precompiled.Proofs.Extent
import Precompiled.Proofs.Heap.Claims
import Precompiled.Proofs.Heap.Preparation
import Precompiled.Proofs.Heap.Provenance

/-! Where the code of an assembled library comes to lie. Every handle of the library
describes code where the assembler put it, the slot that holds it is admitted, and the
bounds of the heap reach over it. Code of other libraries may get into slots that are
still free, but it is never admitted. -/
namespace Precompiled.Heap

open Blob Blob.Draft

variable {draft : Draft} {library : Library} {image : Image} {before after state : State}
  {code : LinkedCode} {codeId : Nat} {source : CodeDraft}

/-! ## Places of code -/

/-- The handle describes the code that was assembled under the id. -/
structure Lies (draft : Draft) (library : Library) (codeId : Nat) (source : CodeDraft)
    (code : LinkedCode) : Prop where
  described : draft.codes[codeId]? = some source
  numbered : code.codeId = codeId
  own : code.libraryId = library.id
  start : code.start = library.codeBase + startOf draft.codeChunks codeId
  size : code.size = span source

section Assembled

variable (loaded : draft.Loaded image.library) (fits : draft.Fits)
include loaded fits

theorem place_lies {name : MethodName} {method : Option MethodRef} {holder : Option ClassRef}
    {classId : Option Nat} {detail : CodeDetail} (found : draft.codes[codeId]? = some source)
    (detailed : image.library.detailOf (draft.codeRecord codeId source) = .ok detail)
    (placed : image.place (draft.codeRecord codeId source) detail name method holder classId =
      .ok code) : Lies draft image.library codeId source code := by
  have read := detailOf_read loaded fits found
  obtain rfl := Except.ok.inj (detailed.symm.trans read)
  obtain ⟨offset, start, geometry, rfl⟩ := place_ok.mp placed
  have begins : natural? (draft.codeRecord codeId source).codeOffset =
      some (startOf draft.codeChunks codeId) :=
    natural_ofNat (startOf_lt fits .code (Nat.le_refl _) codeId)
  obtain rfl := Option.some.inj (geometry.begins.symm.trans begins)
  exact
    { described := found
      numbered := record_codeId fits found
      own := rfl
      start := rfl
      size := detail_size fits found }

theorem stub_lies {codeIds : List Nat} {record : CodeRecord}
    (member : record ∈ draft.codeRecords codeIds) (coded : stubCode image record = .ok code) :
    ∃ source, Lies draft image.library code.codeId source code := by
  obtain ⟨codeId, -, source, found, rfl⟩ := mem_codeRecords.mp member
  obtain ⟨name, detail, detailed, placed⟩ := stubCode_placed coded
  have lies := place_lies loaded fits found detailed placed
  exact ⟨source, lies.numbered.symm ▸ lies⟩

theorem linked_lies {entry : ClassEntry} {holder : ClassRef}
    (linked : Linked image entry holder code) :
    ∃ source, Lies draft image.library code.codeId source code := by
  obtain ⟨records, record, detail, name, live, listed, member, detailed, -, placed⟩ := linked.placed
  have known : Image.classEntry? (draft.image image.library) entry.classId = some entry :=
    linked.known
  obtain ⟨owner, known, same⟩ := (classEntry_read loaded fits).mp known
  have methods := methodsOf_read loaded fits.addressable known
    (methods_start_lt fits entry.classId)
  have own : entry.record = draft.classRecordOf entry.classId owner := congrArg ClassEntry.record same
  rw [own] at listed
  obtain rfl := Except.ok.inj (methods.symm.trans listed)
  obtain ⟨codeId, -, source, found, rfl⟩ := mem_codeRecords.mp member
  have lies := place_lies loaded fits found detailed placed
  exact ⟨source, lies.numbered.symm ▸ lies⟩

end Assembled

/-! ## What most tasks leave alone -/

/-- No handle, no admission and no bound is new. -/
structure State.Keeps (before after : State) : Prop where
  extent : after.extent = before.extent
  slots : ∀ (codeId : Nat) (slot : Slot), after.slots[codeId]? = some slot →
    ∃ old : Slot, before.slots[codeId]? = some old ∧ slot.handle = old.handle ∧
      slot.admitted = old.admitted

theorem State.Keeps.of_same (extent : after.extent = before.extent)
    (slots : after.slots = before.slots) : before.Keeps after where
  extent := extent
  slots _ slot there := ⟨slot, slots ▸ there, rfl, rfl⟩

theorem State.Keeps.set {state : State} {slot later : Slot} (found : state.slots[codeId]? = some slot)
    (handle : later.handle = slot.handle) (admitted : later.admitted = slot.admitted) :
    state.Keeps { state with slots := state.slots.set codeId later } where
  extent := rfl
  slots other there present := by
    rcases set_slot present with ⟨rfl, rfl⟩ | ⟨-, elsewhere⟩
    · exact ⟨slot, found, handle, admitted⟩
    · exact ⟨there, elsewhere, rfl, rfl⟩

theorem retire_admitted {slot : Slot} : slot.retire.2.admitted = slot.admitted := by
  unfold Slot.retire
  split <;> rfl

theorem invalidate_admitted {slot : Slot} : slot.invalidate.2.admitted = slot.admitted := by
  unfold Slot.invalidate
  split
  · rfl
  · split <;> rfl

theorem claimPlace_extent (entry : ClassEntry) (view : ClassView) (state : State) :
    (claimPlace entry view state).2.extent = state.extent := by
  have bound : (state.bindLoader entry.classId view.loader).2.extent = state.extent := by
    unfold State.bindLoader
    split <;> rfl
  unfold claimPlace
  split
  · rfl
  · split
    · rfl
    · dsimp only
      split
      · exact bound
      · exact bound

/-- Tasks that work with the code of the heap alone. -/
def Ordinary : Task → Prop
  | .call (.publish _) | .call (.admitCode _) => False
  | _ => True

/-- The code that a task comes with. -/
def Task.code? : Task → Option LinkedCode
  | .call (.publish code) | .call (.admitCode code) => some code
  | _ => none

theorem Ordinary.code? {task : Task} (ordinary : Ordinary task) : task.code? = none := by
  cases task with
  | call call => cases call <;> first | exact ordinary.elim | rfl
  | _ => rfl

theorem Link.keeps {source : LinkedCode → Prop} {heard : Engine.signature.Heard}
    (orderly : before.Orderly) (linked : Link image source heard before after) :
    before.Keeps after := by
  cases linked with
  | fill filled => cases filled <;> exact .of_same rfl rfl
  | stray known found resolved free =>
    obtain ⟨code, held⟩ := (orderly _ _ found).resolved resolved
    simp [free] at held

theorem Revoke.keeps (revoked : Revoke before after) : before.Keeps after := by
  cases revoked with
  | retire found => exact .set found retire_handle retire_admitted
  | invalidate found idle => exact .set found invalidate_handle invalidate_admitted

/-- Counting code that was counted before changes nothing, and neither does what else
happens without a question. -/
theorem Change.keeps {call : Call} {heard : Engine.signature.Heard} (orderly : before.Orderly)
    (counted : ∀ code, call = .admitCode code → (before.admitCode image code).2 = before)
    (change : Change image call heard before after) : before.Keeps after := by
  cases change with
  | link linked => exact linked.keeps orderly
  | revoke revoked => exact revoked.keeps
  | refuse fits taken => exact .of_same (claimPlace_extent _ _ _) (claimPlace_slots _ _ _)
  | bind presented fits unbound claimed =>
    exact .of_same (claimPlace_extent _ _ _) (claimPlace_slots _ _ _)
  | relocate collected relocated =>
    cases relocated
    exact .of_same rfl rfl
  | count given =>
    rw [counted _ given]
    exact .of_same rfl rfl
  | unbind gone => exact .of_same rfl rfl
  | drop gone dropped =>
    cases dropped
    exact .of_same rfl rfl
  | routines addresses => exact .of_same rfl rfl
  | disable => exact .of_same rfl rfl

/-- Before a question a task leaves the code alone, unless it installs code that it came
with or that it linked. -/
theorem Task.Ask.keeps {task : Task} {question : Question}
    (asked : Task.Ask image task question before after) :
    before.Keeps after ∨ ∃ code, (task.code? = some code ∨
      ∃ entry holder, Linked image entry holder code) ∧ Install image code before after := by
  cases asked with
  | visitor shown => cases shown <;> exact .inl (.of_same rfl rfl)
  | engine asked =>
    cases asked with
    | install known installed =>
      cases known with
      | given => exact .inr ⟨_, .inl rfl, installed⟩
      | linked linked => exact .inr ⟨_, .inr ⟨_, _, linked⟩, installed⟩
    | deoptimize deoptimized =>
      cases deoptimized with
      | slot found executable method =>
        exact .inl (.set found invalidate_handle invalidate_admitted)
    | _ => exact .inl (.of_same rfl rfl)

/-! ## Code in its place -/

/-- All handles of the library describe assembled code, their slots and no others are
admitted, and the bounds reach over them. -/
structure Laid (draft : Draft) (library : Library) (state : State) : Prop where
  lies : ∀ codeId code, state.Holds codeId code → code.libraryId = library.id →
    ∃ source, Lies draft library codeId source code
  admitted : ∀ (codeId : Nat) (slot : Slot), state.slots[codeId]? = some slot →
    (slot.admitted = true ↔ ∃ code, slot.handle = some code ∧ code.libraryId = library.id)
  covered : ∀ codeId code, state.Holds codeId code → code.libraryId = library.id →
    state.extent.Covers (code.start - library.codeBase) (code.stop - library.codeBase)

theorem State.Keeps.holds (keeps : before.Keeps after) (holds : after.Holds codeId code) :
    before.Holds codeId code := by
  obtain ⟨slot, there, held⟩ := holds
  obtain ⟨old, found, handle, -⟩ := keeps.slots codeId slot there
  exact ⟨old, found, handle ▸ held⟩

theorem Laid.keeps (laid : Laid draft library before) (keeps : before.Keeps after) :
    Laid draft library after where
  lies codeId code holds := laid.lies codeId code (keeps.holds holds)
  admitted codeId slot there := by
    obtain ⟨old, found, handle, admitted⟩ := keeps.slots codeId slot there
    rw [handle, admitted]
    exact laid.admitted codeId old found
  covered codeId code holds := keeps.extent ▸ laid.covered codeId code (keeps.holds holds)

theorem initial_laid : Laid draft library image.initialState := by
  have free : ∀ (codeId : Nat) (slot : Slot),
      image.initialState.slots[codeId]? = some slot → slot = {} :=
    fun _ _ there => List.eq_of_mem_replicate (List.mem_of_getElem? there)
  refine ⟨?_, ?_, ?_⟩
  · rintro codeId code ⟨slot, there, held⟩
    simp [free codeId slot there] at held
  · intro codeId slot there
    simp [free codeId slot there]
  · rintro codeId code ⟨slot, there, held⟩
    simp [free codeId slot there] at held

/-- Code that is installed into a slot that is not admitted yet widens the
bounds. -/
theorem install_admits (own : code.libraryId = image.library.id) {slot : Slot} {state : State}
    (found : state.slots[code.codeId]? = some slot) (outside : slot.admitted = false) :
    (State.admitCode image code state).2 =
      { state with
        slots := state.slots.set code.codeId { slot with admitted := true }
        extent := state.extent.widen (UInt32.ofNat (code.start - image.library.codeBase))
          (UInt32.ofNat (code.stop - image.library.codeBase)) } := by
  simp [State.admitCode, own, found, outside, Slot.markAdmitted]

/-- Code of another library is not admitted. -/
theorem admitCode_foreign (foreign : code.libraryId ≠ image.library.id) (state : State) :
    state.admitCode image code = (false, state) :=
  if_pos foreign

/-- Code that is in its slot already is not admitted again. -/
theorem Laid.admitCode_held (laid : Laid draft image.library state)
    (held : code.libraryId = image.library.id → state.Holds code.codeId code) :
    state.admitCode image code = (false, state) := by
  by_cases own : code.libraryId = image.library.id
  · obtain ⟨slot, found, handle⟩ := held own
    have admitted := (laid.admitted _ _ found).mpr ⟨code, handle, own⟩
    simp [State.admitCode, own, found, admitted]
  · exact admitCode_foreign own state

theorem publish_free {slot : Slot} (unresolved : slot.phase = .unresolved)
    (free : slot.handle = none) :
    (slot.publish code).2 = { slot with phase := .resolved, handle := some code } := by
  obtain ⟨phase, handle, admitted⟩ := slot
  cases (unresolved : phase = .unresolved)
  cases (free : handle = none)
  rfl

theorem Lies.place (lies : Lies draft library codeId source code) (fits : draft.Fits) :
    code.start - library.codeBase < code.stop - library.codeBase ∧
      code.stop - library.codeBase < 2 ^ 32 := by
  have inside := (holds_flatten (chunk_get lies.described)).bound
  have covered := draft.span_le codeId source
  have room := draft.part_length_le .code
  have tables := fits.tables
  have header : codeHeaderSize.toNat = 4 := rfl
  have some : 4 ≤ span source := by
    rw [span]
    omega
  rw [LinkedCode.stop, lies.start, lies.size]
  rw [sectionContent] at room
  omega

/-- Code of the library that is installed into a slot that is not admitted yet widens the
bounds, and the slot is admitted. -/
theorem install_own (own : code.libraryId = image.library.id)
    (installed : Install image code before after) :
    ∃ slot : Slot, before.slots[code.codeId]? = some slot ∧ slot.handle = none ∧
      (slot.admitted = false → after =
        { before with
          slots := before.slots.set code.codeId ⟨.resolved, some code, true⟩
          extent := before.extent.widen (UInt32.ofNat (code.start - image.library.codeBase))
            (UInt32.ofNat (code.stop - image.library.codeBase)) }) := by
  cases installed with
  | @slot slot found unresolved free =>
    refine ⟨slot, found, free, fun outside => ?_⟩
    obtain ⟨bound, -⟩ := List.getElem?_eq_some_iff.mp found
    have stored : (slot.publish code).2.admitted = false := by
      rw [publish_free unresolved free]
      exact outside
    have middle : ({ before with slots := before.slots.set code.codeId (slot.publish code).2 } :
        State).slots[code.codeId]? = some (slot.publish code).2 := List.getElem?_set_self bound
    rw [install_admits own middle stored, List.set_set, publish_free unresolved free]

/-- Assembled code that is installed is admitted. -/
theorem Laid.install_own (laid : Laid draft image.library before) (fits : draft.Fits)
    (lies : Lies draft image.library code.codeId source code)
    (installed : Install image code before after) : Laid draft image.library after := by
  have inherits : ∀ other taken, after.Holds other taken →
      other = code.codeId ∧ taken = code ∨ before.Holds other taken :=
    fun _ _ holds => installed.inherits holds
  obtain ⟨ordered, small⟩ := lies.place fits
  obtain ⟨slot, found, free, admits⟩ := Heap.install_own lies.own installed
  have outside : slot.admitted = false := by
    refine Bool.eq_false_iff.mpr fun admitted => ?_
    obtain ⟨other, taken, -⟩ := (laid.admitted _ _ found).mp admitted
    cases free.symm.trans taken
  obtain rfl := admits outside
  refine ⟨?_, ?_, ?_⟩
  · intro other taken holds mine
    rcases inherits other taken holds with ⟨rfl, rfl⟩ | holds
    · exact ⟨source, lies.numbered.symm ▸ lies⟩
    · exact laid.lies other taken holds mine
  · intro other there reached
    rcases set_slot reached with ⟨-, rfl⟩ | ⟨-, elsewhere⟩
    · simp [lies.own]
    · exact laid.admitted other there elsewhere
  · intro other taken holds mine
    rcases inherits other taken holds with ⟨rfl, rfl⟩ | holds
    · have low : (UInt32.ofNat (taken.start - image.library.codeBase)).toNat =
          taken.start - image.library.codeBase := word_value (Nat.lt_trans ordered small)
      have high : (UInt32.ofNat (taken.stop - image.library.codeBase)).toNat =
          taken.stop - image.library.codeBase := word_value small
      have inside : UInt32.ofNat (taken.start - image.library.codeBase) <
          UInt32.ofNat (taken.stop - image.library.codeBase) := by
        rw [UInt32.lt_iff_toNat_lt, low, high]
        exact ordered
      have covers := before.extent.widen_covers inside
      rw [low, high] at covers
      exact covers
    · exact (laid.covered other taken holds mine).widen _ _

/-- Code of another library that is installed takes up its slot and nothing else. -/
theorem install_foreign (foreign : code.libraryId ≠ image.library.id)
    (installed : Install image code before after) :
    ∃ slot : Slot, before.slots[code.codeId]? = some slot ∧ slot.handle = none ∧
      after = { before with
        slots := before.slots.set code.codeId
          { slot with phase := .resolved, handle := some code } } := by
  cases installed with
  | @slot slot found unresolved free =>
    refine ⟨slot, found, free, ?_⟩
    rw [admitCode_foreign foreign, publish_free unresolved free]

/-- Code that is installed was not there before. -/
theorem Install.absent (installed : Install image code before after) (taken : LinkedCode) :
    ¬before.Holds code.codeId taken := by
  rintro ⟨slot, there, held⟩
  obtain ⟨⟨own, found, free⟩, -⟩ := installed.taken
  obtain rfl := Option.some.inj (found.symm.trans there)
  cases free.symm.trans held

theorem Laid.install_foreign (laid : Laid draft image.library before)
    (foreign : code.libraryId ≠ image.library.id) (installed : Install image code before after) :
    Laid draft image.library after := by
  have old : ∀ {other taken}, after.Holds other taken → taken.libraryId = image.library.id →
      before.Holds other taken := by
    intro other taken holds own
    rcases installed.inherits holds with ⟨-, rfl⟩ | holds
    · exact absurd own foreign
    · exact holds
  obtain ⟨slot, found, free, rfl⟩ := Heap.install_foreign foreign installed
  refine ⟨fun other taken holds own => laid.lies other taken (old holds own) own, ?_,
    fun other taken holds own => laid.covered other taken (old holds own) own⟩
  intro other there reached
  rcases set_slot reached with ⟨rfl, rfl⟩ | ⟨-, elsewhere⟩
  · have outside := laid.admitted _ _ found
    simp only [free, reduceCtorEq, false_and, exists_false, iff_false] at outside
    simp [outside, foreign]
  · exact laid.admitted other there elsewhere

/-! ## From creation on -/

/-- Code of the library that a task comes with is in its slot already. -/
def State.Backs (library : Library) (task : Task) (state : State) : Prop :=
  ∀ code, task.code? = some code → code.libraryId = library.id → state.Holds code.codeId code

theorem Ordinary.backs {task : Task} (ordinary : Ordinary task) :
    state.Backs library task := by
  intro code given
  rw [ordinary.code?] at given
  cases given

/-- Without a question all code stays in its place. -/
theorem Laid.change {task : Task} {heard : surroundings.Heard}
    (laid : Laid draft image.library before) (orderly : before.Orderly)
    (backs : before.Backs image.library task)
    (change : Task.Change image task heard before after) : Laid draft image.library after := by
  cases change with
  | call change =>
    refine laid.keeps (Heap.Change.keeps orderly ?_ change)
    rintro code rfl
    rw [laid.admitCode_held (backs code rfl)]
  | collect relocated =>
    cases relocated
    exact laid.keeps (.of_same rfl rfl)

section Assembled

variable (loaded : draft.Loaded image.library) (fits : draft.Fits)
include loaded fits

theorem Settles.laid {codeIds : List Nat}
    (settles : Settles image (draft.codeRecords codeIds) before after)
    (laid : Laid draft image.library before) : Laid draft image.library after := by
  induction settles with
  | refl => exact laid
  | tail _ step ih =>
    obtain ⟨record, member, stub, coded, installed⟩ := step
    obtain ⟨source, lies⟩ := stub_lies loaded fits member coded
    exact ih.install_own fits lies installed

/-- Before a question code is put in its place. -/
theorem Laid.ask {task : Task} {question : Question}
    (laid : Laid draft image.library before) (backs : before.Backs image.library task)
    (asked : Task.Ask image task question before after) : Laid draft image.library after := by
  rcases asked.keeps with keeps | ⟨code, given | ⟨entry, holder, linked⟩, installed⟩
  · exact laid.keeps keeps
  · -- The slot of code of the library would have to be free, but the code is in it.
    exact laid.install_foreign (fun own => installed.absent _ (backs code given own)) installed
  · obtain ⟨source, lies⟩ := linked_lies loaded fits linked
    exact laid.install_own fits lies installed

/-- Ordinary tasks leave all code in its place. -/
theorem laid_preserved : (customs image State.Grows).Preserves Ordinary
    fun _ cell => cell.state.Orderly ∧ Laid draft image.library cell.state where
  changed ordinary kept change := by
    rcases change with same | change
    · rw [same]
      exact kept
    · exact ⟨kept.1.touches change.touches, kept.2.change kept.1 ordinary.backs change⟩
  asked ordinary kept asked := ⟨kept.1.ask asked, kept.2.ask loaded fits ordinary.backs asked⟩
  called _ kept := kept
  answered _ kept := kept
  replied _ kept _ := kept
  drifted kept drifted := by
    rw [drifted]
    exact kept

end Assembled

/-- In a heap that was just created all code is in its place. -/
theorem created_laid {heap : Heap} {journal : Journal} (loaded : draft.Loaded library)
    (fits : draft.Fits) (created : ((Heap.create library).run journal).1 = .ok heap) :
    Laid draft heap.image.library heap.state := by
  obtain ⟨stubs, prepared, settled⟩ := create_ok.mp created
  obtain ⟨rfl, -, -⟩ := prepare_claims prepared
  obtain rfl := Except.ok.inj ((stubRecords_read loaded fits).symm.trans (prepare_stubs prepared))
  have settles := (settleAll_settles (fun _ member => member) initial_pristine settled).1
  exact settles.laid loaded fits initial_laid

/-- All code stays in its place for as long as the tasks are ordinary. -/
theorem Reaches.laid {heap : Heap} {course : (service heap.image).Course}
    (loaded : draft.Loaded heap.image.library) (fits : draft.Fits) (orderly : heap.state.Orderly)
    (laid : Laid draft heap.image.library heap.state)
    (reached : Reaches heap (fun _ task => Ordinary task) course) :
    Laid draft heap.image.library course.state.state := by
  obtain ⟨counters, journal, reached⟩ := reached
  exact (Service.Reaches.holding (customs_kept Ordinary) (laid_preserved loaded fits).sustains
    (fun _ _ ordinary => ordinary) ⟨orderly, laid⟩ reached).2

/-! ## Whose code it is -/

/-- The code is code of the library. -/
def Indigenous (library : Library) (code : LinkedCode) : Prop :=
  code.libraryId = library.id

theorem Linked.indigenous {entry : ClassEntry} {holder : ClassRef}
    (linked : Linked image entry holder code) : Indigenous image.library code := by
  obtain ⟨records, record, detail, name, live, -, -, -, -, placed⟩ := linked.placed
  obtain ⟨offset, start, -, rfl⟩ := place_ok.mp placed
  rfl

theorem stubCode_indigenous {record : Blob.CodeRecord} (coded : stubCode image record = .ok code) :
    Indigenous image.library code := by
  obtain ⟨name, detail, -, placed⟩ := stubCode_placed coded
  obtain ⟨offset, start, -, rfl⟩ := place_ok.mp placed
  rfl

/-- A heap begins with code of its own library. -/
theorem created_indigenous {heap : Heap} {journal : Journal}
    (created : ((Heap.create library).run journal).1 = .ok heap) :
    heap.state.Every (Indigenous heap.image.library) := by
  obtain ⟨stubs, -, settled⟩ := create_ok.mp created
  have settles := (settleAll_settles (fun _ member => member) initial_pristine settled).1
  exact settles.every (fun _ _ _ coded => stubCode_indigenous coded) initial_every

/-- As long as the tasks are ordinary, a heap holds no other code. -/
theorem Reaches.indigenous {heap : Heap} {journal : Journal}
    {course : (service heap.image).Course}
    (created : ((Heap.create library).run journal).1 = .ok heap)
    (reached : Reaches heap (fun _ task => Ordinary task) course) :
    course.state.state.Every (Indigenous heap.image.library) := by
  obtain ⟨counters, journal, reached⟩ := reached
  refine Reaches.every (fun _ _ _ linked => linked.indigenous) (created_pristine created)
    (created_indigenous created) ⟨counters, journal, ?_⟩
  refine Service.steps_widen (fun _ task ordinary => ?_) reached
  rintro code rfl
  exact ordinary.elim

end Precompiled.Heap
