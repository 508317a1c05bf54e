import Mathlib.Data.List.Nodup
import Precompiled.Proofs.Heap.Ensures
import Precompiled.Proofs.Heap.Linking

/-! What loading a class does to slots before an engine whose answers stand in a table:
which methods it publishes, and which slots it takes out of use. -/
namespace Precompiled

namespace Heap

open Blob

variable {image : Image} {table : Engine.Table} {view : ClassView} {before middle after : State}
  {α : Type} {codeId : Nat} {code : LinkedCode} {entry : ClassEntry} {codes : Nat → Prop}

/-! ## Slots -/

/-- Phase and handle of a slot; whether its code was admitted is left out. -/
def State.slot? (state : State) (codeId : Nat) : Option (Slot.Phase × Option LinkedCode) :=
  state.slots[codeId]?.map fun slot => (slot.phase, slot.handle)

/-- Only slots and the extent differ. -/
def State.Reslotted (before after : State) : Prop :=
  after = { before with slots := after.slots, extent := after.extent }

theorem State.Reslotted.refl (state : State) : state.Reslotted state :=
  rfl

theorem State.Reslotted.trans (early : before.Reslotted middle) (late : middle.Reslotted after) :
    before.Reslotted after := by
  rw [State.Reslotted, late, early]

theorem slot?_set {state : State} {slot later : Slot} (found : state.slots[codeId]? = some slot)
    (other : Nat) : State.slot? { state with slots := state.slots.set codeId later } other =
      if other = codeId then some (later.phase, later.handle) else state.slot? other := by
  obtain ⟨inside, -⟩ := List.getElem?_eq_some_iff.mp found
  by_cases same : other = codeId
  · subst same
    simp [State.slot?, List.getElem?_set_self inside]
  · simp [State.slot?, List.getElem?_set_ne (Ne.symm same), same]

theorem slot?_eq_some {state : State} {phase : Slot.Phase} {handle : Option LinkedCode} :
    state.slot? codeId = some (phase, handle) ↔
      ∃ slot, state.slots[codeId]? = some slot ∧ slot.phase = phase ∧ slot.handle = handle := by
  simp [State.slot?]

theorem phase?_of_slot? (state : State) (codeId : Nat) :
    state.phase? codeId = (state.slot? codeId).map Prod.fst := by
  simp [State.phase?, State.slot?, Function.comp_def]

/-- Admitting code changes neither phases nor handles, and nothing else but the
extent. -/
theorem admitCode_slot? (image : Image) (code : LinkedCode) (state : State) :
    state.Reslotted (state.admitCode image code).2 ∧
      ∀ codeId, (state.admitCode image code).2.slot? codeId = state.slot? codeId := by
  unfold State.admitCode
  split
  · exact ⟨rfl, fun _ => rfl⟩
  · split
    · exact ⟨rfl, fun _ => rfl⟩
    · rename_i slot found
      split
      · exact ⟨rfl, fun _ => rfl⟩
      · refine ⟨rfl, fun other => ?_⟩
        show State.slot? { state with slots := state.slots.set code.codeId slot.markAdmitted.2 } other = _
        rw [slot?_set found]
        split
        · rename_i same
          exact same ▸ (slot?_eq_some.mpr ⟨slot, found, rfl, rfl⟩).symm
        · rfl

/-- Putting stubs into slots changes nothing but slots and the extent. -/
theorem Settles.reslotted {records : List Blob.CodeRecord} (settles : Settles image records before after) :
    before.Reslotted after := by
  induction settles with
  | refl => exact .refl _
  | tail _ step ih =>
    obtain ⟨record, -, stub, -, installed⟩ := step
    cases installed with
    | slot found unresolved free =>
      rename_i middle _ slot
      have stored : middle.Reslotted { middle with
        slots := middle.slots.set stub.codeId (slot.publish stub).2 } := rfl
      exact ih.trans (stored.trans (admitCode_slot? image stub _).1)

/-- The list names every slot with the property, once, and no other. -/
structure Enumerates (codeIds : List Nat) (property : Nat → Prop) : Prop where
  once : codeIds.Nodup
  mem : ∀ codeId, codeId ∈ codeIds ↔ property codeId

namespace Enumerates

variable {codeIds more : List Nat} {property other : Nat → Prop}

theorem nil (never : ∀ codeId, ¬property codeId) : Enumerates [] property :=
  ⟨List.nodup_nil, fun codeId => by simp [never codeId]⟩

theorem congr (enumerates : Enumerates codeIds property)
    (same : ∀ codeId, property codeId ↔ other codeId) : Enumerates codeIds other :=
  ⟨enumerates.once, fun codeId => (enumerates.mem codeId).trans (same codeId)⟩

theorem append (first : Enumerates codeIds property) (second : Enumerates more other)
    (apart : ∀ codeId, property codeId → ¬other codeId) :
    Enumerates (codeIds ++ more) fun codeId => property codeId ∨ other codeId where
  once := by
    refine List.nodup_append'.mpr ⟨first.once, second.once, ?_⟩
    intro codeId here there
    exact apart codeId ((first.mem codeId).mp here) ((second.mem codeId).mp there)
  mem codeId := by rw [List.mem_append, first.mem, second.mem]

/-- Two lists of the same slots are the same up to order. -/
theorem perm (first : Enumerates codeIds property) (second : Enumerates more property) :
    codeIds.Perm more :=
  (List.perm_ext_iff_of_nodup first.once second.once).mpr fun codeId =>
    (first.mem codeId).trans (second.mem codeId).symm

end Enumerates

/-- A slot becomes executable. -/
def Rises (before after : State) (codeId : Nat) : Prop :=
  before.phase? codeId ≠ some .resolved ∧ after.phase? codeId = some .resolved

/-- Code was put into its slot, which was free. -/
structure Installs (code : LinkedCode) (before after : State) : Prop where
  frame : before.Reslotted after
  free : before.slot? code.codeId = some (.unresolved, none)
  slots : ∀ codeId, after.slot? codeId =
    if codeId = code.codeId then some (.resolved, some code) else before.slot? codeId

/-- Code is published exactly if nobody else is at its slot. -/
theorem publish_yields (table : Engine.Table) (image : Image) (code : LinkedCode) :
    Yields table (publish image code) fun before result after =>
      before.phase? code.codeId = some .unresolved →
        (∃ winner, result = .published winner) ∧ Installs code before after ∨
          (∀ winner, result ≠ .published winner) ∧
            before.slot? code.codeId ≠ some (.unresolved, none) ∧ after = before := by
  intro cell unresolved
  rw [phase?_of_slot?, Option.map_eq_some_iff] at unresolved
  obtain ⟨⟨phase, handle⟩, seen, rfl⟩ := unresolved
  obtain ⟨slot, found, phased, held⟩ := slot?_eq_some.mp seen
  rw [publish, Operation.finish_bind, Operation.finish_changeSlot, found]
  cases handle with
  | some other =>
    have waits : slot.publish code = (.waiting, slot) := by simp [Slot.publish, phased, held]
    obtain ⟨inside, there⟩ := List.getElem?_eq_some_iff.mp found
    have same : cell.state.slots.set code.codeId slot = cell.state.slots :=
      there ▸ List.set_getElem_self inside
    simp [waits, same, seen]
  | none =>
    have stored : slot.publish code =
        (.published code, { slot with phase := .resolved, handle := some code }) := by
      simp [Slot.publish, phased, held]
    simp only [stored]
    have stores : cell.state.Reslotted { cell.state with
      slots := cell.state.slots.set code.codeId { slot with phase := .resolved, handle := some code } } :=
      rfl
    obtain ⟨frame, slots⟩ := admitCode_slot? image code { cell.state with
      slots := cell.state.slots.set code.codeId { slot with phase := .resolved, handle := some code } }
    exact .inl ⟨⟨code, rfl⟩, stores.trans frame, seen, fun other => (slots other).trans (slot?_set found other)⟩

/-! ## Methods -/

/-- The slot that a record names. -/
abbrev slotNumber (record : CodeRecord) : Nat :=
  record.codeId.toUInt32.toNat

/-- The method of a record wants code: it has a live counterpart that has none and is not
excluded, and the record's details can be read. -/
structure Wants (image : Image) (table : Engine.Table) (view : ClassView) (record : CodeRecord)
    (name : MethodName) (live : LiveMethod) (detail : CodeDetail) : Prop where
  named : image.library.methodName record = .ok name
  declared : table (.findMethod view.klass name) = some live
  lacking : live.hasCode = false
  allowed : live.excluded = false
  detailed : image.library.detailOf record = .ok detail

theorem Wants.unique {record : CodeRecord} {name other : MethodName} {live rival : LiveMethod}
    {detail more : CodeDetail} (wants : Wants image table view record name live detail)
    (others : Wants image table view record other rival more) :
    name = other ∧ live = rival ∧ detail = more := by
  obtain rfl := Except.ok.inj (wants.named.symm.trans others.named)
  exact ⟨rfl, Option.some.inj (wants.declared.symm.trans others.declared),
    Except.ok.inj (wants.detailed.symm.trans others.detailed)⟩

/-- The code that a live class links for a record: its method wants code, all that the
code refers to can be resolved, and the code has its place. -/
inductive Links (image : Image) (table : Engine.Table) (entry : ClassEntry) (view : ClassView)
    (able : Nat → CodeDetail → Prop) (record : CodeRecord) : LinkedCode → Prop where
  | placed {name : MethodName} {live : LiveMethod} {detail : CodeDetail} {code : LinkedCode}
    (wants : Wants image table view record name live detail)
    (resolvable : able (slotNumber record) detail)
    (placed : image.place record detail name live.method view.klass entry.classId = .ok code) :
    Links image table entry view able record code

namespace Links

variable {able others : Nat → CodeDetail → Prop} {record : CodeRecord} {rival : LinkedCode}

theorem mono (links : Links image table entry view able record code)
    (implies : ∀ detail, able (slotNumber record) detail → others (slotNumber record) detail) :
    Links image table entry view others record code := by
  obtain ⟨wants, resolvable, placed⟩ := links
  exact .placed wants (implies _ resolvable) placed

theorem unique (links : Links image table entry view able record code)
    (others : Links image table entry view able record rival) : code = rival := by
  obtain ⟨wants, -, placed⟩ := links
  obtain ⟨also, -, there⟩ := others
  obtain ⟨rfl, rfl, rfl⟩ := wants.unique also
  exact Except.ok.inj (placed.symm.trans there)

theorem number (links : Links image table entry view able record code) :
    code.codeId = slotNumber record := by
  obtain ⟨-, -, placed⟩ := links
  obtain ⟨_, _, -, rfl⟩ := place_ok.mp placed
  rfl

theorem method (links : Links image table entry view able record code) : code.isStub = false := by
  obtain ⟨-, -, placed⟩ := links
  obtain ⟨_, _, -, rfl⟩ := place_ok.mp placed
  rfl

end Links

/-- Resolves what a method refers to and gives its code its place. -/
def linkDetail (image : Image) (entry : ClassEntry) (view : ClassView) (record : CodeRecord)
    (name : MethodName) (live : LiveMethod) (detail : CodeDetail) :
    Operation (Except Error (Option LinkedCode)) := do
  match ← resolveReferences image (slotNumber record) detail view with
  | .error error => return .error (inMethod name error)
  | .ok () => return (image.place record detail name live.method view.klass entry.classId).map some

/-- The code that a live class would publish for a record, if there is something to do for
its method. -/
def linkCode (image : Image) (entry : ClassEntry) (view : ClassView) (record : CodeRecord) :
    Operation (Except Error (Option LinkedCode)) := do
  if (← Operation.look fun state => state.phase? (slotNumber record)) ≠ some .unresolved then
    return .ok none
  else
    match image.library.methodName record with
    | .error error => return .error error
    | .ok name =>
      match ← Operation.ask (.findMethod view.klass name) with
      | none =>
        Operation.note .debug .methods s!"{name.display} has no live method"
        return .ok none
      | some live =>
        if live.hasCode || live.excluded then return .ok none
        else
          match image.library.detailOf record with
          | .error error => return .error error
          | .ok detail => linkDetail image entry view record name live detail

/-- Publishes code if there is some. -/
def publishLinked (image : Image) :
    Except Error (Option LinkedCode) → Operation (Except Error Bool)
  | .error error => return .error error
  | .ok none => return .ok false
  | .ok (some code) => do
    match ← publish image code with
    | .published _ => return .ok true
    | _ => return .ok false

theorem publishMethod_finish (table : Engine.Table) (image : Image) (entry : ClassEntry)
    (view : ClassView) (record : CodeRecord) (cell : Cell) :
    (publishMethod image entry view record).finish table cell =
      (publishLinked image ((linkCode image entry view record).finish table cell).1).finish table
        ((linkCode image entry view record).finish table cell).2 := by
  unfold publishMethod linkCode
  rw [Operation.finish_bind, Operation.finish_bind, Operation.finish_look]
  dsimp only
  split
  · rfl
  cases image.library.methodName record with
  | error error => rfl
  | ok name =>
  dsimp only
  rw [Operation.finish_bind, Operation.finish_bind, Operation.finish_ask]
  cases table (.findMethod view.klass name) with
  | none => rfl
  | some live =>
  dsimp only
  split
  · rfl
  cases image.library.detailOf record with
  | error error => rfl
  | ok detail =>
  dsimp only [linkDetail]
  rw [Operation.finish_bind, Operation.finish_bind]
  generalize Operation.finish table _ cell = outcome
  obtain ⟨_ | ⟨⟨⟩⟩, middle⟩ := outcome
  · rfl
  dsimp only
  cases image.place record detail name live.method view.klass entry.classId <;> rfl

/-- References are resolved exactly for a method that wants code and whose slot is
unresolved. -/
theorem linkCode_cases (table : Engine.Table) (image : Image) (entry : ClassEntry)
    (view : ClassView) (record : CodeRecord) (cell : Cell) :
    (cell.state.phase? (slotNumber record) = some .unresolved ∧ ∃ name live detail,
      Wants image table view record name live detail ∧
        (linkCode image entry view record).finish table cell =
          (linkDetail image entry view record name live detail).finish table cell) ∨
    (cell.state.phase? (slotNumber record) = some .unresolved →
      ∀ name live detail, ¬Wants image table view record name live detail) ∧
        (∀ code, ((linkCode image entry view record).finish table cell).1 ≠ .ok (some code)) ∧
          ((linkCode image entry view record).finish table cell).2.state = cell.state := by
  rw [linkCode, Operation.finish_bind, Operation.finish_look]
  dsimp only
  split
  next other => exact .inr ⟨fun unresolved => absurd unresolved other, nofun, rfl⟩
  next unresolved =>
  cases named : image.library.methodName record with
  | error error =>
    refine .inr ⟨fun _ name live detail wants => ?_, nofun, rfl⟩
    cases named.symm.trans wants.named
  | ok name =>
  dsimp only
  rw [Operation.finish_bind, Operation.finish_ask]
  cases declared : table (.findMethod view.klass name) with
  | none =>
    refine .inr ⟨fun _ other live detail wants => ?_, nofun, rfl⟩
    obtain rfl := Except.ok.inj (named.symm.trans wants.named)
    cases declared.symm.trans wants.declared
  | some live =>
  dsimp only
  split
  next unwanted =>
    refine .inr ⟨fun _ other rival detail wants => ?_, nofun, rfl⟩
    obtain rfl := Except.ok.inj (named.symm.trans wants.named)
    obtain rfl := Option.some.inj (declared.symm.trans wants.declared)
    simp [wants.lacking, wants.allowed] at unwanted
  next wanted =>
  cases detailed : image.library.detailOf record with
  | error error =>
    refine .inr ⟨fun _ other rival detail wants => ?_, nofun, rfl⟩
    cases detailed.symm.trans wants.detailed
  | ok detail =>
    simp only [Bool.or_eq_true, not_or, Bool.not_eq_true] at wanted
    exact .inl ⟨not_not.mp unresolved, name, live, detail,
      ⟨named, declared, wanted.1, wanted.2, detailed⟩, rfl⟩

/-- What becomes of a heap when a method is linked. Whether there is code for it shows in
any earlier state of the tables. -/
structure Linking (image : Image) (table : Engine.Table) (entry : ClassEntry) (view : ClassView)
    (codes : Nat → Prop) (record : CodeRecord) (before : State)
    (result : Except Error (Option LinkedCode)) (after : State) : Prop where
  feeds : Feeds image table view codes before after
  furnished : ∀ code, result = .ok (some code) → ∃ detail,
    image.library.detailOf record = .ok detail ∧
      Furnished image (slotNumber record) detail after
  decided : ∀ base, Fed image table view codes base before → ∀ code,
    result = .ok (some code) ↔ before.phase? (slotNumber record) = some .unresolved ∧
      Links image table entry view (Resolves image table view base) record code
  inert : ∀ later, Fed image table view codes after later →
    (later.phase? (slotNumber record) = some .unresolved →
      before.phase? (slotNumber record) = some .unresolved) →
    Inert table (linkCode image entry view record) later

theorem linkDetail_result (table : Engine.Table) (image : Image) (entry : ClassEntry)
    (view : ClassView) (record : CodeRecord) (name : MethodName) (live : LiveMethod)
    (detail : CodeDetail) (cell : Cell) :
    ((linkDetail image entry view record name live detail).finish table cell).2 =
        ((resolveReferences image (slotNumber record) detail view).finish table cell).2 ∧
      ∀ code, ((linkDetail image entry view record name live detail).finish table cell).1 =
          .ok (some code) ↔
        (∃ value, ((resolveReferences image (slotNumber record) detail view).finish table cell).1 =
          .ok value) ∧
        image.place record detail name live.method view.klass entry.classId = .ok code := by
  rw [linkDetail, Operation.finish_bind]
  generalize Operation.finish table _ cell = outcome
  obtain ⟨_ | ⟨⟨⟩⟩, middle⟩ := outcome
  · exact ⟨rfl, fun code => ⟨nofun, fun ⟨⟨_, impossible⟩, _⟩ => nomatch impossible⟩⟩
  · refine ⟨rfl, fun code => ?_⟩
    dsimp only [Operation.finish_pure]
    rw [Outcome.map_ok]
    simp

theorem linkCode_yields (labelled : image.Labelled) (table : Engine.Table)
    (entry : ClassEntry) (view : ClassView) {record : CodeRecord} (own : codes (slotNumber record)) :
    Yields table (linkCode image entry view record)
      (Linking image table entry view codes record) := by
  intro cell
  rcases linkCode_cases table image entry view record cell with
    ⟨unresolved, name, live, detail, wants, same⟩ | ⟨never, nothing, still⟩
  · have trial (base : State) : Trial table _ _ _ (Resolves image table view base _ _) _
        (resolveReferences image (slotNumber record) detail view) _ _ _ :=
      resolveReferences_trials labelled own detail base cell
    obtain ⟨last, result⟩ := linkDetail_result table image entry view record name live detail cell
    rw [same, last]
    refine ⟨(trial cell.state).moved, fun code linked => ?_, fun base known code => ?_,
      fun later onward _ other there => ?_⟩
    · exact ⟨detail, wants.detailed, (trial cell.state).reached ((result code).mp linked).1⟩
    · rw [result, (trial base).decided known]
      constructor
      · rintro ⟨resolves, placed⟩
        exact ⟨unresolved, .placed wants resolves placed⟩
      · rintro ⟨-, others, resolves, placed⟩
        obtain ⟨rfl, rfl, rfl⟩ := wants.unique others
        exact ⟨resolves, placed⟩
    · rcases linkCode_cases table image entry view record other with
        ⟨-, _, _, _, others, repeated⟩ | ⟨-, -, still⟩
      · obtain ⟨rfl, rfl, rfl⟩ := wants.unique others
        rw [repeated, (linkDetail_result table image entry view record _ _ _ other).1]
        exact (trial cell.state).inert (.refl _) later onward other there
      · exact still.trans there
  · rw [still]
    refine ⟨.refl _, fun code linked => absurd linked (nothing code), fun base _ code => ?_,
      fun later _ earlier other there => ?_⟩
    · refine ⟨fun linked => absurd linked (nothing code), ?_⟩
      rintro ⟨unresolved, wants, -⟩
      exact absurd wants (never unresolved _ _ _)
    · rcases linkCode_cases table image entry view record other with
        ⟨unresolved, _, _, _, wants, -⟩ | ⟨-, -, still⟩
      · exact absurd wants (never (earlier (there ▸ unresolved)) _ _ _)
      · exact still.trans there

/-! ## Loads -/

/-- Only slots, the extent and the contents of reference tables differ. -/
def State.Relinked (before after : State) : Prop :=
  after = { before with
    slots := after.slots
    extent := after.extent
    metaspace := after.metaspace
    metadata := after.metadata
    objects := after.objects }

/-- What becomes of a heap when a live class publishes methods: those that it can link
get into their slots, and all they refer to is there. Whether it can link them shows in any
earlier state of the tables. -/
structure Loads (image : Image) (table : Engine.Table) (entry : ClassEntry) (view : ClassView)
    (codes : Nat → Prop) (records : List CodeRecord) (before after : State) : Prop where
  frame : before.Relinked after
  fed : Fed image table view codes before after
  slots : ∀ codeId, after.slot? codeId = before.slot? codeId ∨
    before.slot? codeId = some (.unresolved, none) ∧
      ∃ record ∈ records, slotNumber record = codeId ∧ ∃ code detail,
        after.slot? codeId = some (.resolved, some code) ∧
          image.library.detailOf record = .ok detail ∧ Furnished image codeId detail after
  decided : ∀ base, Fed image table view codes base before →
    ∀ codeId, before.slot? codeId = some (.unresolved, none) →
      (after.slot? codeId = some (.unresolved, none) ∧ ∀ record ∈ records,
        slotNumber record = codeId → ∀ code,
          ¬Links image table entry view (Resolves image table view base) record code) ∨
      ∃ record ∈ records, slotNumber record = codeId ∧ ∃ code,
        Links image table entry view (Resolves image table view base) record code ∧
          after.slot? codeId = some (.resolved, some code)

/-- Tables were filled further, and slots that are still unresolved are as they were. -/
structure Onward (image : Image) (table : Engine.Table) (view : ClassView) (codes : Nat → Prop)
    (before after : State) : Prop where
  fed : Fed image table view codes before after
  slots : ∀ codeId handle, after.slot? codeId = some (.unresolved, handle) →
    before.slot? codeId = some (.unresolved, handle)

theorem Onward.refl (state : State) : Onward image table view codes state state :=
  ⟨.refl state, fun _ _ seen => seen⟩

theorem Onward.trans (early : Onward image table view codes before middle)
    (late : Onward image table view codes middle after) :
    Onward image table view codes before after :=
  ⟨early.fed.trans late.fed, fun codeId handle seen =>
    early.slots codeId handle (late.slots codeId handle seen)⟩

theorem Onward.unresolved (onward : Onward image table view codes before after)
    (unresolved : after.phase? codeId = some .unresolved) :
    before.phase? codeId = some .unresolved := by
  rw [phase?_of_slot?, Option.map_eq_some_iff] at unresolved ⊢
  obtain ⟨⟨phase, handle⟩, seen, rfl⟩ := unresolved
  exact ⟨_, onward.slots codeId handle seen, rfl⟩

theorem Feeds.relinked (feeds : Feeds image table view codes before after) :
    before.Relinked after := by
  rw [State.Relinked, feeds.frame]

theorem Feeds.slot? (feeds : Feeds image table view codes before after) (codeId : Nat) :
    after.slot? codeId = before.slot? codeId := by
  rw [feeds.frame]
  rfl

theorem Feeds.onward (feeds : Feeds image table view codes before after) :
    Onward image table view codes before after :=
  ⟨feeds.fed, fun codeId _ seen => feeds.slot? codeId ▸ seen⟩

theorem Installs.fed (installs : Installs code before after) :
    Fed image table view codes before after := by
  refine .of_same ?_ ?_ ?_ <;> rw [installs.frame]

/-- So many slots become executable, and what was executable stays so. -/
structure Raised (before : State) (count : Nat) (after : State) : Prop where
  counted : ∃ codeIds, Enumerates codeIds (Rises before after) ∧ codeIds.length = count
  kept : ∀ codeId, before.phase? codeId = some .resolved → after.phase? codeId = some .resolved

namespace Raised

theorem none (same : ∀ codeId, after.slot? codeId = before.slot? codeId) :
    Raised before 0 after := by
  have phases : ∀ codeId, after.phase? codeId = before.phase? codeId := fun codeId => by
    rw [phase?_of_slot?, same, ← phase?_of_slot?]
  refine ⟨⟨[], .nil fun codeId rises => ?_, rfl⟩, fun codeId resolved => ?_⟩
  · exact rises.1 ((phases codeId).symm.trans rises.2)
  · exact (phases codeId).trans resolved

theorem one (feeds : Feeds image table view codes before middle)
    (installs : Installs code middle after) : Raised before 1 after := by
  have phases : ∀ codeId, after.phase? codeId =
      if codeId = code.codeId then some .resolved else before.phase? codeId := fun codeId => by
    rw [phase?_of_slot?, installs.slots, feeds.slot?, phase?_of_slot?]
    split <;> rfl
  have free : before.phase? code.codeId = some .unresolved := by
    rw [phase?_of_slot?, ← feeds.slot?, installs.free]
    rfl
  refine ⟨⟨[code.codeId], ⟨List.nodup_singleton _, fun codeId => ?_⟩, rfl⟩, fun codeId resolved => ?_⟩
  · rw [List.mem_singleton, Rises, phases]
    by_cases here : codeId = code.codeId
    · subst here
      simp [free]
    · simp [here]
  · rw [phases]
    split
    · rfl
    · exact resolved

theorem add {first second : Nat} (early : Raised before first middle)
    (late : Raised middle second after) : Raised before (first + second) after := by
  obtain ⟨⟨codeIds, enumerates, rfl⟩, kept⟩ := early
  obtain ⟨⟨more, others, rfl⟩, stays⟩ := late
  have apart : ∀ codeId, Rises before middle codeId → ¬Rises middle after codeId :=
    fun codeId rises again => again.1 rises.2
  refine ⟨⟨codeIds ++ more, (enumerates.append others apart).congr fun codeId => ?_,
    List.length_append⟩, fun codeId resolved => stays codeId (kept codeId resolved)⟩
  constructor
  · rintro (⟨fresh, risen⟩ | ⟨fresh, risen⟩)
    · exact ⟨fresh, stays codeId risen⟩
    · exact ⟨fun resolved => fresh (kept codeId resolved), risen⟩
  · rintro ⟨fresh, risen⟩
    by_cases already : middle.phase? codeId = some .resolved
    · exact .inl ⟨fresh, already⟩
    · exact .inr ⟨already, risen⟩

/-- Nothing becomes executable where nothing happens. -/
theorem zero {count : Nat} (raised : Raised before count before) : count = 0 := by
  obtain ⟨⟨codeIds, enumerates, rfl⟩, -⟩ := raised
  rw [List.length_eq_zero_iff, List.eq_nil_iff_forall_not_mem]
  intro codeId member
  obtain ⟨fresh, risen⟩ := (enumerates.mem codeId).mp member
  exact fresh risen

end Raised

namespace Loads

variable {records more : List CodeRecord}

/-- A record whose code is not linked. -/
theorem idle {record : CodeRecord} (feeds : Feeds image table view codes before after)
    (never : ∀ base, Fed image table view codes base before →
      before.slot? (slotNumber record) = some (.unresolved, none) →
        ∀ code, ¬Links image table entry view (Resolves image table view base) record code) :
    Loads image table entry view codes [record] before after where
  frame := feeds.relinked
  fed := feeds.fed
  slots codeId := .inl (feeds.slot? codeId)
  decided base known codeId free := by
    refine .inl ⟨(feeds.slot? codeId).trans free, ?_⟩
    rintro other member rfl
    obtain rfl := List.mem_singleton.mp member
    exact never base known free

/-- A record whose code was installed after all that it refers to was resolved. -/
theorem install {record : CodeRecord} {detail : CodeDetail}
    (feeds : Feeds image table view codes before middle) (installs : Installs code middle after)
    (detailed : image.library.detailOf record = .ok detail)
    (furnished : Furnished image (slotNumber record) detail middle)
    (links : ∀ base, Fed image table view codes base before →
      Links image table entry view (Resolves image table view base) record code) :
    Loads image table entry view codes [record] before after := by
  have number : code.codeId = slotNumber record := (links before (.refl _)).number
  have fed : Fed image table view codes middle after := installs.fed
  obtain ⟨frame, free, slots⟩ := installs
  have stored : after.slot? code.codeId = some (.resolved, some code) := by simp [slots]
  refine ⟨?_, feeds.fed.trans fed, fun codeId => ?_, fun base known codeId free => ?_⟩
  · rw [State.Relinked, frame, feeds.frame]
  · by_cases here : codeId = code.codeId
    · subst here
      exact .inr ⟨(feeds.slot? _).symm.trans free, record, List.mem_singleton_self _, number.symm,
        code, detail, stored, detailed, number ▸ furnished.fed fed⟩
    · exact .inl ((slots codeId).trans ((if_neg here).trans (feeds.slot? codeId)))
  · by_cases here : codeId = code.codeId
    · subst here
      exact .inr ⟨record, List.mem_singleton_self _, number.symm, code, links base known, stored⟩
    · refine .inl ⟨?_, ?_⟩
      · rw [slots, if_neg here, feeds.slot?, free]
      · rintro other member same
        obtain rfl := List.mem_singleton.mp member
        exact absurd (same.symm.trans number.symm) here

theorem nil (state : State) : Loads image table entry view codes [] state state where
  frame := rfl
  fed := .refl state
  slots _ := .inl rfl
  decided _ _ _ free := .inl ⟨free, fun _ impossible => (List.not_mem_nil impossible).elim⟩

/-- Published code stays. -/
theorem kept {codeId : Nat} {code : LinkedCode}
    (loads : Loads image table entry view codes records before after)
    (stored : before.slot? codeId = some (.resolved, some code)) :
    after.slot? codeId = some (.resolved, some code) := by
  rcases loads.slots codeId with same | ⟨free, -⟩
  · exact same.trans stored
  · cases stored.symm.trans free

theorem onward (loads : Loads image table entry view codes records before after) :
    Onward image table view codes before after := by
  refine ⟨loads.fed, fun codeId handle seen => ?_⟩
  rcases loads.slots codeId with same | ⟨-, -, -, -, code, detail, stored, -⟩
  · exact same.symm.trans seen
  · cases stored.symm.trans seen

/-- What was published by the first of the records is left alone by the others. -/
theorem append (first : Loads image table entry view codes records before middle)
    (onward : Loads image table entry view codes more middle after) :
    Loads image table entry view codes (records ++ more) before after where
  frame := by rw [State.Relinked, onward.frame, first.frame]
  fed := first.fed.trans onward.fed
  slots codeId := by
    rcases first.slots codeId with
      same | ⟨free, published, member, number, code, detail, stored, detailed, furnished⟩
    · rcases onward.slots codeId with still | ⟨free, other, among, rest⟩
      · exact .inl (still.trans same)
      · exact .inr ⟨same ▸ free, other, List.mem_append_right _ among, rest⟩
    · exact .inr ⟨free, published, List.mem_append_left _ member, number, code, detail,
        onward.kept stored, detailed, furnished.fed onward.fed⟩
  decided base known codeId free := by
    rcases first.decided base known codeId free with
      ⟨still, never⟩ | ⟨published, member, number, code, links, stored⟩
    · rcases onward.decided base (known.trans first.fed) codeId still with
        ⟨last, others⟩ | ⟨other, among, rest⟩
      · exact .inl ⟨last, List.forall_mem_append.mpr ⟨never, others⟩⟩
      · exact .inr ⟨other, List.mem_append_right _ among, rest⟩
    · exact .inr ⟨published, List.mem_append_left _ member, number, code, links, onward.kept stored⟩

end Loads

/-- What becomes of a heap when methods are published, how many of them become executable,
and that it is no use to publish them again. -/
structure Rollout (image : Image) (table : Engine.Table) (entry : ClassEntry) (view : ClassView)
    (codes : Nat → Prop) (records : List CodeRecord) (again : Operation α) (before : State)
    (count : Nat) (after : State) : Prop where
  loads : Loads image table entry view codes records before after
  raised : Raised before count after
  inert : ∀ later, Onward image table view codes after later → Inert table again later

/-- A method counts if it was published. -/
def published : Except Error Bool → Nat
  | .ok true => 1
  | _ => 0

theorem publishLinked_yields (table : Engine.Table) (image : Image)
    (linked : Except Error (Option LinkedCode)) :
    Yields table (publishLinked image linked) fun before result after =>
      (∀ code, linked = .ok (some code) → before.phase? code.codeId = some .unresolved) →
        (∃ code, linked = .ok (some code) ∧ published result = 1 ∧ Installs code before after) ∨
        published result = 0 ∧ after = before ∧ ∀ code, linked = .ok (some code) →
          before.slot? code.codeId ≠ some (.unresolved, none) := by
  intro cell unresolved
  rcases linked with error | _ | code
  · exact .inr ⟨rfl, rfl, nofun⟩
  · exact .inr ⟨rfl, rfl, nofun⟩
  · have stored := publish_yields table image code cell (unresolved code rfl)
    rw [publishLinked, Operation.finish_bind]
    generalize Operation.finish table _ cell = outcome at stored ⊢
    obtain ⟨publication, last⟩ := outcome
    rcases stored with ⟨⟨winner, rfl⟩, installs⟩ | ⟨refused, taken, unchanged⟩
    · exact .inl ⟨code, rfl, rfl, installs⟩
    · have other : ∀ rival, (Except.ok (some code) : Except Error _) = .ok (some rival) →
          cell.state.slot? rival.codeId ≠ some (.unresolved, none) := by
        rintro rival ⟨⟩
        exact taken
      cases publication with
      | published winner => exact absurd rfl (refused winner)
      | alreadyPublished winner => exact .inr ⟨rfl, unchanged, other⟩
      | waiting => exact .inr ⟨rfl, unchanged, other⟩
      | invalidated => exact .inr ⟨rfl, unchanged, other⟩

theorem publishMethod_yields (labelled : image.Labelled) (table : Engine.Table)
    (entry : ClassEntry) (view : ClassView) {record : CodeRecord} (own : codes (slotNumber record)) :
    Yields table (publishMethod image entry view record) fun before result after =>
      Rollout image table entry view codes [record] (publishMethod image entry view record)
        before (published result) after := by
  intro cell
  have linking := linkCode_yields labelled table entry view own
  -- Code is published at a slot that was unresolved all along.
  have publishes (other : Cell) : ∀ code,
      ((linkCode image entry view record).finish table other).1 = .ok (some code) →
      ((linkCode image entry view record).finish table other).2.state.phase? code.codeId =
        some .unresolved := by
    intro code linked
    obtain ⟨unresolved, links⟩ := ((linking other).decided other.state (.refl _) code).mp linked
    rw [links.number, phase?_of_slot?, (linking other).feeds.slot?, ← phase?_of_slot?]
    exact unresolved
  have spent : ∀ after, Onward image table view codes
      ((linkCode image entry view record).finish table cell).2.state after →
      (∀ code, ((linkCode image entry view record).finish table cell).1 = .ok (some code) →
        after.slot? code.codeId ≠ some (.unresolved, none)) →
      ∀ later, Onward image table view codes after later →
        Inert table (publishMethod image entry view record) later := by
    rintro after early taken later late other rfl
    have onward := (linking cell).feeds.onward.trans (early.trans late)
    have still := (linking cell).inert other.state (early.trans late).fed onward.unresolved other rfl
    rw [publishMethod_finish]
    rcases publishLinked_yields table image _ _ (publishes other) with
      ⟨code, linked, -, installs⟩ | ⟨-, unchanged, -⟩
    · obtain ⟨unresolved, links⟩ := ((linking other).decided cell.state onward.fed code).mp linked
      have before := ((linking cell).decided cell.state (.refl _) code).mpr
        ⟨onward.unresolved unresolved, links⟩
      exact absurd (late.slots _ _ (still ▸ installs.free)) (taken code before)
    · exact unchanged.trans still
  obtain ⟨feeds, furnished, decided, -⟩ := linking cell
  rw [publishMethod_finish]
  rcases publishLinked_yields table image _ _ (publishes cell) with
    ⟨code, linked, one, installs⟩ | ⟨none, unchanged, taken⟩
  · obtain ⟨detail, detailed, there⟩ := furnished code linked
    have loads := Loads.install feeds installs detailed there fun base known =>
      ((decided base known code).mp linked).2
    have stored := installs.slots code.codeId
    rw [one]
    refine ⟨loads, .one feeds installs, spent _ ?_ fun rival same => ?_⟩
    · refine ⟨installs.fed, fun codeId handle seen => ?_⟩
      rw [installs.slots] at seen
      split at seen
      · cases seen
      · exact seen
    · obtain rfl := Option.some.inj (Except.ok.inj (linked.symm.trans same))
      simp [stored]
  · rw [none, unchanged]
    refine ⟨.idle feeds fun base known free code links => ?_, .none feeds.slot?,
      spent _ (.refl _) taken⟩
    have unresolved : cell.state.phase? (slotNumber record) = some .unresolved := by
      rw [phase?_of_slot?, free]
      rfl
    have linked := (decided base known code).mpr ⟨unresolved, links⟩
    refine taken code linked ?_
    rw [feeds.slot?, links.number, free]

/-- Whatever comes of the first method, the others have their turn. -/
theorem publishMethods_finish (table : Engine.Table) (image : Image) (entry : ClassEntry)
    (view : ClassView) (record : CodeRecord) (rest : List CodeRecord) (cell : Cell) :
    ∃ next : Cell, (publishMethods image entry view (record :: rest)).finish table cell =
        (published ((publishMethod image entry view record).finish table cell).1 +
          ((publishMethods image entry view rest).finish table next).1,
        ((publishMethods image entry view rest).finish table next).2) ∧
      next.state = ((publishMethod image entry view record).finish table cell).2.state := by
  rw [publishMethods, Operation.finish_bind]
  generalize Operation.finish table _ cell = outcome
  obtain ⟨result, middle⟩ := outcome
  rcases result with error | _ | _
  on_goal 1 => cases error
  all_goals
    simp only [Operation.finish_bind, Operation.finish_count, Operation.finish_note,
      Operation.finish_pure, zero_add, published]
    exact ⟨_, rfl, rfl⟩

theorem publishMethods_yields (labelled : image.Labelled) (table : Engine.Table)
    (entry : ClassEntry) (view : ClassView) {records : List CodeRecord}
    (own : ∀ record ∈ records, codes (slotNumber record)) :
    Yields table (publishMethods image entry view records) fun before count after =>
      Rollout image table entry view codes records (publishMethods image entry view records)
        before count after := by
  induction records with
  | nil => exact fun cell => ⟨.nil cell.state, .none fun _ => rfl, fun _ _ _ same => same⟩
  | cons record rest ih =>
    intro cell
    have first := publishMethod_yields labelled table entry view (own record List.mem_cons_self) cell
    obtain ⟨next, whole, same⟩ := publishMethods_finish table image entry view record rest cell
    have others := ih (fun other member => own other (List.mem_cons_of_mem _ member)) next
    rw [same] at others
    rw [whole]
    refine ⟨first.loads.append others.loads, first.raised.add others.raised, ?_⟩
    rintro later onward other rfl
    obtain ⟨again, repeated, still⟩ := publishMethods_finish table image entry view record rest other
    have unchanged := first.inert _ (others.loads.onward.trans onward) other rfl
    rw [repeated]
    exact others.inert _ onward again (still.trans unchanged)

end Heap

end Precompiled
