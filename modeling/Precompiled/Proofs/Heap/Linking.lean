import Precompiled.Proofs.Heap.Answered
import Precompiled.Proofs.Heap.Referents

/-! What linking does to the tables of a heap before an engine whose answers stand in
a table. Slots are only ever filled, each with the answer to its own descriptor, and
resolving a reference succeeds exactly if its slot holds something afterwards. -/
namespace Precompiled

namespace Got

variable {α : Type} {said more : Nat → α → Prop} {first second third : Got α}

/-- Null slots were filled with what was said about them, and nothing else happened. -/
structure Filled (said : Nat → α → Prop) (before after : Got α) : Prop where
  size : after.size = before.size
  kept : ∀ index value, before.get index = some value → after.get index = some value
  source : ∀ index value, after.get index = some value →
    before.get index = some value ∨ said index value

namespace Filled

theorem refl (table : Got α) : Filled said table table :=
  ⟨rfl, fun _ _ held => held, fun _ _ held => .inl held⟩

theorem trans (early : Filled said first second) (late : Filled said second third) :
    Filled said first third where
  size := late.size.trans early.size
  kept index value held := late.kept index value (early.kept index value held)
  source index value held := by
    rcases late.source index value held with before | new
    · exact early.source index value before
    · exact .inr new

theorem mono (filled : Filled said first second)
    (implies : ∀ index value, said index value → more index value) : Filled more first second where
  size := filled.size
  kept := filled.kept
  source index value held := (filled.source index value held).imp_right (implies index value)

/-- A slot that changed was null and was filled with something that was said about it. -/
theorem changed (filled : Filled said first second) {index : Nat}
    (changed : second.get index ≠ first.get index) :
    first.get index = none ∧ ∃ value, said index value := by
  cases null : first.get index with
  | some value => exact absurd ((filled.kept _ _ null).trans null.symm) changed
  | none =>
    cases held : second.get index with
    | none => exact absurd (held.trans null.symm) changed
    | some value =>
      refine ⟨rfl, value, (filled.source _ _ held).resolve_left fun before => ?_⟩
      cases null.symm.trans before

end Filled

theorem setIfNull_filled {index : Nat} {value : α} (table : Got α) (told : said index value) :
    Filled said table (setIfNull index value table).2 where
  size := setIfNull_size index value table
  kept _ _ held := setIfNull_get held
  source other seen held := by
    rcases setIfNull_source held with before | ⟨rfl, rfl⟩
    · exact .inl before
    · exact .inr told

/-- The slot is in the table, and it holds a value or there is this one for it. -/
def Supplied (table : Got α) (index : Nat) (answer : Option α) : Prop :=
  index < table.size ∧ ((∃ value, table.get index = some value) ∨ ∃ value, answer = some value)

/-- Resolving the slot changes nothing: it holds a value, it is not in the table, or
there is no value for it. -/
def Idle (table : Got α) (index : Nat) (answer : Option α) : Prop :=
  (∃ value, table.get index = some value) ∨ table.size ≤ index ∨ answer = none

/-- Nobody gains or loses by what was filled in before, as long as each slot was filled with
the value that there is for it. -/
theorem Filled.supplied (filled : Filled said first second) {index : Nat} {answer : Option α}
    (own : ∀ value, said index value → answer = some value) :
    second.Supplied index answer ↔ first.Supplied index answer := by
  unfold Supplied
  rw [filled.size]
  refine and_congr_right fun _ => ⟨?_, Or.imp_left fun ⟨value, held⟩ => ⟨value, filled.kept _ _ held⟩⟩
  rintro (⟨value, held⟩ | told)
  · exact (filled.source index value held).imp (fun before => ⟨value, before⟩)
      fun told => ⟨value, own value told⟩
  · exact .inr told

theorem Filled.idle (filled : Filled said first second) {index : Nat} {answer : Option α}
    (idle : first.Idle index answer) : second.Idle index answer := by
  unfold Idle
  rw [filled.size]
  exact idle.imp_left fun ⟨value, held⟩ => ⟨value, filled.kept _ _ held⟩

end Got

namespace Heap

variable {image : Image} {table : Engine.Table} {view : ClassView} {before middle after : State}
  {α : Type}

/-! ## Reference tables -/

/-- What becomes of one slot when it is resolved with the answer given beforehand. -/
structure Fills (index : Nat) (answer : Option α) (before : Got α) (result : Option α)
    (after : Got α) : Prop where
  filled : Got.Filled (fun other value => other = index ∧ answer = some value) before after
  held : ∀ value, result = some value → after.get index = some value
  decided : (∃ value, result = some value) ↔ before.Supplied index answer
  still : before.Idle index answer → after = before
  settled : after.Idle index answer

theorem fills_setIfNull {index : Nat} {slots : Got α} (value : α) (null : slots.get index = none)
    (inside : index < slots.size) : Fills index (some value) slots
      (Got.setIfNull index value slots).1 (Got.setIfNull index value slots).2 where
  filled := Got.setIfNull_filled slots ⟨rfl, rfl⟩
  held _ result := Got.setIfNull_value result
  decided :=
    ⟨fun _ => ⟨inside, .inr ⟨value, rfl⟩⟩, fun _ => ⟨value, Got.setIfNull_stored value null inside⟩⟩
  still idle := by
    rcases idle with ⟨other, held⟩ | outside | silent
    · cases null.symm.trans held
    · exact absurd inside (Nat.not_lt.mpr outside)
    · cases silent
  settled := .inl ⟨value, Got.setIfNull_value (Got.setIfNull_stored value null inside)⟩

/-- A slot that holds something is left alone; a null slot of the table is filled with
the answer, if there is one. -/
theorem getOrResolve_finish {part : Part (Got α) Cell} {resolve : Operation (Option α)}
    {answer : Option α} (asks : ∀ cell, resolve.finish table cell = (answer, cell))
    (kept : ∀ cell, part.set (part.get cell) cell = cell) (index : Nat) (cell : Cell) :
    ∃ result slots, Operation.finish table (Got.getOrResolve part index resolve) cell =
        (result, part.set slots cell) ∧ Fills index answer (part.get cell) result slots := by
  rw [Got.getOrResolve, Operation.finish_bind, Operation.finish_read]
  have nothing : (part.get cell).get index = none → (part.get cell).size ≤ index ∨ answer = none →
      Fills index answer (part.get cell) none (part.get cell) := by
    intro null lacking
    refine ⟨.refl _, ?_, ⟨?_, ?_⟩, fun _ => rfl, .inr lacking⟩
    · rintro value ⟨⟩
    · rintro ⟨value, ⟨⟩⟩
    · rintro ⟨inside, ⟨value, held⟩ | ⟨value, told⟩⟩
      · cases null.symm.trans held
      · rcases lacking with outside | silent
        · exact absurd inside (Nat.not_lt.mpr outside)
        · cases silent.symm.trans told
  cases held : (part.get cell).get index with
  | some value =>
    refine ⟨some value, part.get cell, ?_, .refl _, fun _ same => same ▸ held, ?_, fun _ => rfl,
      .inl ⟨value, held⟩⟩
    · rw [kept]
      rfl
    · exact ⟨fun _ => ⟨Got.get_inside held, .inl ⟨value, held⟩⟩, fun _ => ⟨value, rfl⟩⟩
  | none =>
    by_cases outside : (part.get cell).size ≤ index
    · refine ⟨none, part.get cell, ?_, nothing held (.inl outside)⟩
      simp [outside, kept]
    · simp only [outside, if_false, Operation.finish_bind, asks]
      cases answer with
      | none =>
        refine ⟨none, part.get cell, ?_, nothing held (.inr rfl)⟩
        rw [kept]
        rfl
      | some value =>
        exact ⟨_, _, rfl, fills_setIfNull value held (Nat.lt_of_not_le outside)⟩

/-- There is a slot for the reference, and it holds a value or there is one for it. -/
def Supplies (described : Except Error (String × Nat)) (answer : String → Option α)
    (slots : Got α) : Prop :=
  ∃ descriptor index, described = .ok (descriptor, index) ∧ slots.Supplied index (answer descriptor)

/-- The slot of the reference holds a value. -/
def Shows (described : Except Error (String × Nat)) (slots : Got α) : Prop :=
  ∃ descriptor index value, described = .ok (descriptor, index) ∧ slots.get index = some value

/-- What becomes of a table when a described slot is resolved. -/
structure Resolution (described : Except Error (String × Nat)) (answer : String → Option α)
    (before : Got α) (succeeds : Prop) (after : Got α) : Prop where
  filled : Got.Filled (fun index value => ∃ descriptor, described = .ok (descriptor, index) ∧
    answer descriptor = some value) before after
  held : succeeds → Shows described after
  decided : succeeds ↔ Supplies described answer before
  still : (∀ descriptor index, described = .ok (descriptor, index) →
    before.Idle index (answer descriptor)) → after = before
  settled : ∀ descriptor index, described = .ok (descriptor, index) →
    after.Idle index (answer descriptor)

/-- Resolves the slot that a descriptor belongs to. -/
def resolveSlot (image : Image) (part : Part (Got α) Cell) (described : Except Error (String × Nat))
    (request : String → Operation (Option α)) (reference : String → Reference) :
    Operation (Except Error α) :=
  match described with
  | .error error => return .error error
  | .ok (descriptor, index) => do
    let value ← Got.getOrResolve part index (request descriptor)
    return orUnresolved image value (reference descriptor)

theorem orUnresolved_ok {value : Option α} {reference : Reference} :
    (∃ result, orUnresolved image value reference = .ok result) ↔ ∃ result, value = some result := by
  cases value <;> simp [orUnresolved]

theorem resolveSlot_finish (image : Image) (part : Part (Got α) Cell)
    (described : Except Error (String × Nat)) {request : String → Operation (Option α)} {answer : String → Option α}
    (asks : ∀ descriptor cell, (request descriptor).finish table cell = (answer descriptor, cell))
    (kept : ∀ cell, part.set (part.get cell) cell = cell) (reference : String → Reference)
    (cell : Cell) :
    ∃ result slots, (resolveSlot image part described request reference).finish table cell =
        (result, part.set slots cell) ∧
      Resolution described answer (part.get cell) (∃ value, result = .ok value) slots := by
  cases described with
  | error error =>
    refine ⟨.error error, part.get cell, by rw [kept]; rfl, .refl _, nofun, ⟨nofun, ?_⟩,
      fun _ => rfl, nofun⟩
    rintro ⟨_, _, impossible, -⟩
    cases impossible
  | ok found =>
    obtain ⟨descriptor, index⟩ := found
    obtain ⟨value, slots, whole, fills⟩ :=
      getOrResolve_finish (asks descriptor) kept index cell
    refine ⟨orUnresolved image value (reference descriptor), slots, ?_, ?_, ?_, ?_, ?_, ?_⟩
    · rw [resolveSlot, Operation.finish_bind, whole]
      rfl
    · refine fills.filled.mono ?_
      rintro other value ⟨rfl, told⟩
      exact ⟨descriptor, rfl, told⟩
    · intro succeeded
      obtain ⟨result, rfl⟩ := orUnresolved_ok.mp succeeded
      exact ⟨descriptor, index, result, rfl, fills.held result rfl⟩
    · rw [orUnresolved_ok, fills.decided]
      simp [Supplies]
    · exact fun idle => fills.still (idle descriptor index rfl)
    · rintro _ _ ⟨⟩
      exact fills.settled

/-! ## Trials -/

/-- Answered from a table, the operation leaves the state as it is. -/
def Inert (table : Engine.Table) (operation : Operation α) (state : State) : Prop :=
  ∀ cell, cell.state = state → (operation.finish table cell).2.state = state

/-- What trials do adds up, and what is known outlasts it. Between two trials more may
happen than in them. -/
structure Progress (does may : State → State → Prop) (known : State → Prop) : Prop where
  refl : ∀ state, does state state
  trans : ∀ {first second third}, does first second → does second third → does first third
  within : ∀ {state after}, does state after → may state after
  onward : ∀ {first second third}, may first second → may second third → may first third
  keeps : ∀ {state after}, may state after → known state → known after

/-- What becomes of a state when something is tried that may fail. Whether it
succeeds shows beforehand, and there is no use in trying it again. -/
structure Trial (table : Engine.Table) (does may : State → State → Prop) (known : State → Prop)
    (good : Prop) (reached : State → Prop) (again : Operation α) (before : State) (succeeds : Prop)
    (after : State) : Prop where
  moved : does before after
  reached : succeeds → reached after
  decided : known before → (succeeds ↔ good)
  inert : known before → ∀ later, may after later → Inert table again later

/-- Answered from a table, the operation is such a trial. -/
def Trials (table : Engine.Table) (does may : State → State → Prop) (known : State → Prop)
    (good : Prop) (reached : State → Prop) (operation : Operation (Except Error α)) : Prop :=
  Yields table operation fun before result after =>
    Trial table does may known good reached operation before (∃ value, result = .ok value) after

/-- One trial after the other, as long as they succeed. -/
def andThen {β : Type} (first : Operation (Except Error α)) (second : Operation (Except Error β)) :
    Operation (Except Error β) := do
  match ← first with
  | .error error => return .error error
  | .ok _ => second

section Trials

variable {β : Type} {does may : State → State → Prop} {known : State → Prop} {good also : Prop}
  {reached further : State → Prop} {first : Operation (Except Error α)}
  {second : Operation (Except Error β)}

theorem Trials.congr (trials : Trials table does may known good reached first)
    (same : good ↔ also) (implies : ∀ state, reached state → further state) :
    Trials table does may known also further first := by
  intro cell
  obtain ⟨moved, got, decided, inert⟩ := trials cell
  exact ⟨moved, fun succeeded => implies _ (got succeeded),
    fun holds => (decided holds).trans same, inert⟩

theorem Trials.andThen (progress : Progress does may known)
    (lasts : ∀ {state after}, may state after → reached state → reached after)
    (one : Trials table does may known good reached first)
    (two : Trials table does may known also further second) :
    Trials table does may known (good ∧ also) (fun state => reached state ∧ further state)
      (andThen first second) := by
  intro cell
  have early := one cell
  rw [Heap.andThen, Operation.finish_bind]
  -- A second trial fails where the first one failed, and is inert up to there.
  have again : ∀ later : Cell, known later.state →
      ((∃ value, (first.finish table later).1 = .ok value) ↔ good) := fun later holds =>
    (one later).decided holds
  generalize first.finish table cell = outcome at early ⊢
  obtain ⟨result, middle⟩ := outcome
  cases result with
  | error error =>
    have fails : ¬∃ value, (Except.error error : Except Error α) = .ok value := by simp
    refine ⟨early.moved, nofun, fun holds => ?_, fun holds later onward other same => ?_⟩
    · exact ⟨nofun, fun both => absurd ((early.decided holds).mpr both.1) fails⟩
    · have held : known other.state :=
        same ▸ progress.keeps (progress.onward (progress.within early.moved) onward) holds
      have refused : ¬∃ value, (first.finish table other).1 = .ok value := fun succeeded =>
        fails ((early.decided holds).mpr ((again other held).mp succeeded))
      have still := early.inert holds later onward other same
      rw [Operation.finish_bind]
      generalize first.finish table other = outcome at refused still ⊢
      obtain ⟨result, last⟩ := outcome
      cases result with
      | error error => exact still
      | ok value => exact absurd ⟨value, rfl⟩ refused
  | ok value =>
    have late := two middle
    have step := progress.within early.moved
    refine ⟨progress.trans early.moved late.moved, fun succeeded => ?_, fun holds => ?_,
      fun holds later onward other same => ?_⟩
    · exact ⟨lasts (progress.within late.moved) (early.reached ⟨value, rfl⟩), late.reached succeeded⟩
    · have fine := (early.decided holds).mp ⟨value, rfl⟩
      exact (late.decided (progress.keeps step holds)).trans ⟨fun more => ⟨fine, more⟩, And.right⟩
    · have rest := progress.onward (progress.within late.moved) onward
      have held : known other.state := same ▸ progress.keeps (progress.onward step rest) holds
      have fine := (early.decided holds).mp ⟨value, rfl⟩
      obtain ⟨repeated, accepted⟩ := (again other held).mpr fine
      have still := early.inert holds later rest other same
      rw [Operation.finish_bind]
      generalize first.finish table other = outcome at accepted still ⊢
      obtain ⟨result, last⟩ := outcome
      dsimp only at accepted
      subst accepted
      exact late.inert (progress.keeps step holds) later onward last still

/-- A step for each item. -/
theorem forEach_trials {step : α → Operation (Except Error β)} {items : List α}
    {good : α → Prop} {reached : α → State → Prop} (progress : Progress does may known)
    (lasts : ∀ {item state after}, may state after → reached item state → reached item after)
    (each : ∀ item, Trials table does may known (good item) (reached item) (step item)) :
    Trials table does may known (∀ item ∈ items, good item)
      (fun state => ∀ item ∈ items, reached item state) (forEach step items) := by
  induction items with
  | nil =>
    intro cell
    exact ⟨progress.refl _, fun _ => nofun, fun _ => by simp [forEach],
      fun _ later _ other same => same⟩
  | cons item rest ih =>
    have both := (each item).andThen progress (fun moved => lasts moved) ih
    simp only [List.forall_mem_cons]
    exact both

/-- A slot that is resolved when it is needed. -/
theorem Resolution.trials {operation : Operation (Except Error α)} {slots : State → Got α}
    {described : Except Error (String × Nat)} {answer : String → Option α} {base : State}
    (yields : Yields table operation fun before result after =>
      (slots after = slots before → after = before) ∧ does before after ∧
        Resolution described answer (slots before) (∃ value, result = .ok value) (slots after))
    (onward : ∀ {state after}, may state after →
      ∃ said, Got.Filled said (slots state) (slots after))
    (fair : ∀ {state}, known state → ∀ descriptor index, described = .ok (descriptor, index) →
      ((slots state).Supplied index (answer descriptor) ↔
        (slots base).Supplied index (answer descriptor))) :
    Trials table does may known (Supplies described answer (slots base))
      (fun state => Shows described (slots state)) operation := by
  intro cell
  obtain ⟨-, moved, resolution⟩ := yields cell
  refine ⟨moved, resolution.held, fun holds => ?_, fun _ later rest other same => ?_⟩
  · rw [resolution.decided]
    exact exists₂_congr fun descriptor index =>
      and_congr_right fun described => fair holds descriptor index described
  · subst same
    obtain ⟨unchanged, -, repeated⟩ := yields other
    obtain ⟨said, filled⟩ := onward rest
    exact unchanged (repeated.still fun descriptor index described =>
      filled.idle (resolution.settled descriptor index described))

end Trials

/-! ## One reference -/

/-- Only the contents of reference tables differ. -/
def State.Refilled (before after : State) : Prop :=
  after = { before with
    metaspace := after.metaspace
    metadata := after.metadata
    objects := after.objects }

/-- Reference tables were filled with what the table of answers says to a live class;
metadata slots only if the class is linking their code. -/
structure Fed (image : Image) (table : Engine.Table) (view : ClassView) (codes : Nat → Prop)
    (before after : State) : Prop where
  metaspace : Got.Filled (fun index klass => ∃ name,
    image.library.metaspaceName index = .ok name ∧
      table (.findClass name view.loader) = some klass) before.metaspace after.metaspace
  metadata : Got.Filled (fun index value => ∃ codeId localIndex descriptor, codes codeId ∧
    metadataSlot image codeId localIndex = .ok (descriptor, index) ∧
      table (.resolveMetadata descriptor view) = some value) before.metadata after.metadata
  objects : Got.Filled (fun index object => ∃ descriptor,
    image.library.objectName index = .ok descriptor ∧
      table (.resolveObject descriptor) = some object) before.objects after.objects

/-- Tables have their sizes, and hold nothing but answers to a live class; this is said
about metadata slots only if the class is linking their code. -/
structure Agrees (image : Image) (table : Engine.Table) (view : ClassView) (codes : Nat → Prop)
    (state : State) : Prop where
  metaspaceSize : state.metaspace.size = image.library.header.metaspaceSize.toNat
  metadataSize : state.metadata.size = image.library.header.metadataSize.toNat
  objectSize : state.objects.size = image.library.header.objectSize.toNat
  metaspace : ∀ name index klass, image.library.metaspaceName index = .ok name →
    state.metaspace.get index = some klass → table (.findClass name view.loader) = some klass
  metadata : ∀ codeId localIndex descriptor index value, codes codeId →
    metadataSlot image codeId localIndex = .ok (descriptor, index) →
    state.metadata.get index = some value → table (.resolveMetadata descriptor view) = some value
  objects : ∀ descriptor index object, image.library.objectName index = .ok descriptor →
    state.objects.get index = some object → table (.resolveObject descriptor) = some object

/-- Reference tables were filled for a live class, and nothing else happened. -/
structure Feeds (image : Image) (table : Engine.Table) (view : ClassView) (codes : Nat → Prop)
    (before after : State) : Prop where
  frame : before.Refilled after
  fed : Fed image table view codes before after

section References

variable {codes : Nat → Prop} {codeId localIndex : Nat}

theorem State.Refilled.refl (state : State) : state.Refilled state :=
  rfl

theorem State.Refilled.trans (early : before.Refilled middle) (late : middle.Refilled after) :
    before.Refilled after := by
  rw [State.Refilled, late, early]

namespace Fed

theorem refl (state : State) : Fed image table view codes state state :=
  ⟨.refl _, .refl _, .refl _⟩

theorem trans (early : Fed image table view codes before middle)
    (late : Fed image table view codes middle after) : Fed image table view codes before after :=
  ⟨early.metaspace.trans late.metaspace, early.metadata.trans late.metadata,
    early.objects.trans late.objects⟩

theorem of_same (metaspace : after.metaspace = before.metaspace)
    (metadata : after.metadata = before.metadata) (objects : after.objects = before.objects) :
    Fed image table view codes before after :=
  ⟨metaspace ▸ .refl _, metadata ▸ .refl _, objects ▸ .refl _⟩

end Fed

theorem Feeds.refl (state : State) : Feeds image table view codes state state :=
  ⟨.refl state, .refl state⟩

theorem Feeds.trans (early : Feeds image table view codes before middle)
    (late : Feeds image table view codes middle after) : Feeds image table view codes before after :=
  ⟨early.frame.trans late.frame, early.fed.trans late.fed⟩

/-- A name as the descriptor of the slot at an index. -/
def describedAt (index : Nat) (named : Except Error String) : Except Error (String × Nat) :=
  named.map fun name => (name, index)

theorem describedAt_ok {index other : Nat} {named : Except Error String} {descriptor : String} :
    describedAt index named = .ok (descriptor, other) ↔ named = .ok descriptor ∧ other = index := by
  unfold describedAt
  rw [Outcome.map_ok]
  constructor
  · rintro ⟨name, rfl, ⟨⟩⟩
    exact ⟨rfl, rfl⟩
  · rintro ⟨rfl, rfl⟩
    exact ⟨descriptor, rfl, rfl⟩

theorem resolveMetaspace_eq (image : Image) (index : Nat) (loader : LoaderId) :
    resolveMetaspace image index loader = resolveSlot image Cell.metaspace
      (describedAt index (image.library.metaspaceName index))
      (fun name => Operation.ask (.findClass name loader)) .liveClass := by
  unfold resolveMetaspace resolveSlot describedAt
  cases image.library.metaspaceName index <;> rfl

theorem resolveMetadata_eq (image : Image) (codeId localIndex : Nat) (holder : ClassView) :
    resolveMetadata image codeId localIndex holder = resolveSlot image Cell.metadata
      (metadataSlot image codeId localIndex)
      (fun descriptor => Operation.ask (.resolveMetadata descriptor holder)) .metadata := by
  unfold resolveMetadata resolveSlot
  rcases metadataSlot image codeId localIndex with _ | ⟨_, _⟩ <;> rfl

theorem resolveObject_eq (image : Image) (index : Nat) :
    resolveObject image index = resolveSlot image Cell.objects
      (describedAt index (image.library.objectName index))
      (fun descriptor => Operation.ask (.resolveObject descriptor)) .object := by
  unfold resolveObject resolveSlot describedAt
  cases image.library.objectName index <;> rfl

/-- What is known of tables that were filled from a state on is what this state says. -/
theorem Feeds.progress (base : State) :
    Progress (Feeds image table view codes) (Fed image table view codes)
      (Fed image table view codes base) where
  refl := .refl
  trans := .trans
  within feeds := feeds.fed
  onward := .trans
  keeps later fed := fed.trans later

theorem resolveMetaspace_yields (image : Image) (table : Engine.Table) (view : ClassView)
    (index : Nat) :
    Yields table (resolveMetaspace image index view.loader) fun before result after =>
      after = { before with metaspace := after.metaspace } ∧
        Resolution (describedAt index (image.library.metaspaceName index))
          (fun name => table (.findClass name view.loader)) before.metaspace
          (∃ klass, result = .ok klass) after.metaspace := by
  intro cell
  have asks : ∀ name cell, Operation.finish table (Operation.ask (.findClass name view.loader)) cell =
      (table (.findClass name view.loader), cell) := fun _ _ => rfl
  obtain ⟨result, slots, whole, resolution⟩ := resolveSlot_finish image Cell.metaspace
    (describedAt index (image.library.metaspaceName index)) asks (fun _ => rfl) .liveClass cell
  rw [resolveMetaspace_eq, whole]
  exact ⟨rfl, resolution⟩

theorem resolveMetaspace_trials (codes : Nat → Prop) (base : State) (index : Nat) :
    Trials table (Feeds image table view codes) (Fed image table view codes)
      (Fed image table view codes base)
      (Supplies (describedAt index (image.library.metaspaceName index))
        (fun name => table (.findClass name view.loader)) base.metaspace)
      (fun state => Shows (describedAt index (image.library.metaspaceName index)) state.metaspace)
      (resolveMetaspace image index view.loader) := by
  refine Resolution.trials ((resolveMetaspace_yields image table view index).weaken ?_)
    (fun fed => ⟨_, fed.metaspace⟩) fun fed name other described => ?_
  · rintro before result after ⟨frame, resolution⟩
    refine ⟨fun same => ?_, ⟨?_, ?_⟩, resolution⟩
    · rw [frame, same]
    · rw [State.Refilled, frame]
    · have metadata : after.metadata = before.metadata := by rw [frame]
      have objects : after.objects = before.objects := by rw [frame]
      refine ⟨resolution.filled.mono ?_, metadata ▸ .refl _, objects ▸ .refl _⟩
      rintro other klass ⟨name, described, told⟩
      obtain ⟨named, rfl⟩ := describedAt_ok.mp described
      exact ⟨name, named, told⟩
  · obtain ⟨named, rfl⟩ := describedAt_ok.mp described
    refine fed.metaspace.supplied fun klass => ?_
    rintro ⟨other, called, told⟩
    obtain rfl := Except.ok.inj (named.symm.trans called)
    exact told

theorem resolveObject_yields (image : Image) (table : Engine.Table) (index : Nat) :
    Yields table (resolveObject image index) fun before result after =>
      after = { before with objects := after.objects } ∧
        Resolution (describedAt index (image.library.objectName index))
          (fun descriptor => table (.resolveObject descriptor)) before.objects
          (∃ object, result = .ok object) after.objects := by
  intro cell
  have asks : ∀ descriptor cell,
      Operation.finish table (Operation.ask (.resolveObject descriptor)) cell =
        (table (.resolveObject descriptor), cell) := fun _ _ => rfl
  obtain ⟨result, slots, whole, resolution⟩ := resolveSlot_finish image Cell.objects
    (describedAt index (image.library.objectName index)) asks (fun _ => rfl) .object cell
  rw [resolveObject_eq, whole]
  exact ⟨rfl, resolution⟩

theorem resolveObject_trials (view : ClassView) (codes : Nat → Prop) (base : State) (index : Nat) :
    Trials table (Feeds image table view codes) (Fed image table view codes)
      (Fed image table view codes base)
      (Supplies (describedAt index (image.library.objectName index))
        (fun descriptor => table (.resolveObject descriptor)) base.objects)
      (fun state => Shows (describedAt index (image.library.objectName index)) state.objects)
      (resolveObject image index) := by
  refine Resolution.trials ((resolveObject_yields image table index).weaken ?_)
    (fun fed => ⟨_, fed.objects⟩) fun fed descriptor other described => ?_
  · rintro before result after ⟨frame, resolution⟩
    refine ⟨fun same => ?_, ⟨?_, ?_⟩, resolution⟩
    · rw [frame, same]
    · rw [State.Refilled, frame]
    · have metaspace : after.metaspace = before.metaspace := by rw [frame]
      have metadata : after.metadata = before.metadata := by rw [frame]
      refine ⟨metaspace ▸ .refl _, metadata ▸ .refl _, resolution.filled.mono ?_⟩
      rintro other object ⟨descriptor, described, told⟩
      obtain ⟨named, rfl⟩ := describedAt_ok.mp described
      exact ⟨descriptor, named, told⟩
  · obtain ⟨named, rfl⟩ := describedAt_ok.mp described
    refine fed.objects.supplied fun object => ?_
    rintro ⟨other, called, told⟩
    obtain rfl := Except.ok.inj (named.symm.trans called)
    exact told

theorem resolveMetadata_yields (image : Image) (table : Engine.Table) (view : ClassView)
    (codeId localIndex : Nat) :
    Yields table (resolveMetadata image codeId localIndex view) fun before result after =>
      after = { before with metadata := after.metadata } ∧
        Resolution (metadataSlot image codeId localIndex)
          (fun descriptor => table (.resolveMetadata descriptor view)) before.metadata
          (∃ value, result = .ok value) after.metadata := by
  intro cell
  have asks : ∀ descriptor cell,
      Operation.finish table (Operation.ask (.resolveMetadata descriptor view)) cell =
        (table (.resolveMetadata descriptor view), cell) := fun _ _ => rfl
  obtain ⟨result, slots, whole, resolution⟩ := resolveSlot_finish image Cell.metadata
    (metadataSlot image codeId localIndex) asks (fun _ => rfl) .metadata cell
  rw [resolveMetadata_eq, whole]
  exact ⟨rfl, resolution⟩

theorem resolveMetadata_trials (labelled : image.Labelled) (own : codes codeId) (base : State)
    (localIndex : Nat) :
    Trials table (Feeds image table view codes) (Fed image table view codes)
      (Fed image table view codes base)
      (Supplies (metadataSlot image codeId localIndex)
        (fun descriptor => table (.resolveMetadata descriptor view)) base.metadata)
      (fun state => Shows (metadataSlot image codeId localIndex) state.metadata)
      (resolveMetadata image codeId localIndex view) := by
  refine Resolution.trials ((resolveMetadata_yields image table view codeId localIndex).weaken ?_)
    (fun fed => ⟨_, fed.metadata⟩) fun fed descriptor index described => ?_
  · rintro before result after ⟨frame, resolution⟩
    refine ⟨fun same => ?_, ⟨?_, ?_⟩, resolution⟩
    · rw [frame, same]
    · rw [State.Refilled, frame]
    · have metaspace : after.metaspace = before.metaspace := by rw [frame]
      have objects : after.objects = before.objects := by rw [frame]
      refine ⟨metaspace ▸ .refl _, resolution.filled.mono ?_, objects ▸ .refl _⟩
      rintro index value ⟨descriptor, described, told⟩
      exact ⟨codeId, localIndex, descriptor, own, described, told⟩
  · refine fed.metadata.supplied fun value => ?_
    rintro ⟨other, otherIndex, text, -, called, told⟩
    obtain ⟨rfl, rfl⟩ := labelled.metadata _ _ _ _ _ _ _ described called
    obtain ⟨rfl, -⟩ := Prod.mk.inj (Except.ok.inj (described.symm.trans called))
    exact told

/-! ## All references of a method -/

/-- Everything that a piece of code refers to has its slot, and each of them holds a value
or gets one. -/
structure Resolves (image : Image) (table : Engine.Table) (view : ClassView) (base : State)
    (codeId : Nat) (detail : Blob.CodeDetail) : Prop where
  classes : ∀ index ∈ detail.classRefs,
    Supplies (describedAt index.toNat (image.library.metaspaceName index.toNat))
      (fun name => table (.findClass name view.loader)) base.metaspace
  metadata : ∀ localIndex ∈ List.range detail.metadataNames.length,
    Supplies (metadataSlot image codeId localIndex)
      (fun descriptor => table (.resolveMetadata descriptor view)) base.metadata
  objects : ∀ index ∈ detail.objectRefs,
    Supplies (describedAt index.toNat (image.library.objectName index.toNat))
      (fun descriptor => table (.resolveObject descriptor)) base.objects

/-- Everything that a piece of code refers to is there. -/
structure Furnished (image : Image) (codeId : Nat) (detail : Blob.CodeDetail) (state : State) :
    Prop where
  classes : ∀ index ∈ detail.classRefs,
    Shows (describedAt index.toNat (image.library.metaspaceName index.toNat)) state.metaspace
  metadata : ∀ localIndex ∈ List.range detail.metadataNames.length,
    Shows (metadataSlot image codeId localIndex) state.metadata
  objects : ∀ index ∈ detail.objectRefs,
    Shows (describedAt index.toNat (image.library.objectName index.toNat)) state.objects

theorem Shows.filled {described : Except Error (String × Nat)} {said : Nat → α → Prop}
    {slots later : Got α} (shows : Shows described slots) (filled : Got.Filled said slots later) :
    Shows described later := by
  obtain ⟨descriptor, index, value, named, held⟩ := shows
  exact ⟨descriptor, index, value, named, filled.kept _ _ held⟩

theorem Furnished.fed {detail : Blob.CodeDetail} (furnished : Furnished image codeId detail before)
    (fed : Fed image table view codes before after) : Furnished image codeId detail after where
  classes index member := (furnished.classes index member).filled fed.metaspace
  metadata localIndex member := (furnished.metadata localIndex member).filled fed.metadata
  objects index member := (furnished.objects index member).filled fed.objects

theorem resolveReferences_eq (image : Image) (codeId : Nat) (detail : Blob.CodeDetail)
    (view : ClassView) : resolveReferences image codeId detail view =
      andThen (forEach (fun index => resolveMetaspace image index.toNat view.loader) detail.classRefs)
        (andThen (forEach (fun localIndex => resolveMetadata image codeId localIndex view)
            (List.range detail.metadataNames.length))
          (forEach (fun index => resolveObject image index.toNat) detail.objectRefs)) := by
  refine bind_congr fun classes => ?_
  rcases classes with _ | ⟨⟨⟩⟩
  · rfl
  · refine bind_congr fun metadata => ?_
    rcases metadata with _ | ⟨⟨⟩⟩ <;> rfl

/-- Resolving what a piece of code refers to fills tables and nothing else. If it
succeeds all of it is there, and whether it does shows beforehand. -/
theorem resolveReferences_trials (labelled : image.Labelled) (own : codes codeId)
    (detail : Blob.CodeDetail) (base : State) :
    Trials table (Feeds image table view codes) (Fed image table view codes)
      (Fed image table view codes base)
      (Resolves image table view base codeId detail) (Furnished image codeId detail)
      (resolveReferences image codeId detail view) := by
  have progress : Progress (Feeds image table view codes) (Fed image table view codes)
      (Fed image table view codes base) := Feeds.progress base
  have classes : Trials table _ _ _ (∀ index ∈ detail.classRefs, _)
      (fun state => ∀ index ∈ detail.classRefs, _) _ :=
    forEach_trials progress (fun fed shows => shows.filled fed.metaspace)
      fun index => resolveMetaspace_trials codes base index.toNat
  have metadata : Trials table _ _ _ (∀ localIndex ∈ List.range detail.metadataNames.length, _)
      (fun state => ∀ localIndex ∈ List.range detail.metadataNames.length, _) _ :=
    forEach_trials progress (fun fed shows => shows.filled fed.metadata)
      fun localIndex => resolveMetadata_trials labelled own base localIndex
  have objects : Trials table _ _ _ (∀ index ∈ detail.objectRefs, _)
      (fun state => ∀ index ∈ detail.objectRefs, _) _ :=
    forEach_trials progress (fun fed shows => shows.filled fed.objects)
      fun index => resolveObject_trials view codes base index.toNat
  have rest := metadata.andThen progress
    (fun fed shows localIndex member => (shows localIndex member).filled fed.metadata) objects
  have all := classes.andThen progress
    (fun fed shows index member => (shows index member).filled fed.metaspace) rest
  rw [resolveReferences_eq]
  refine all.congr ?_ fun state => ?_
  · exact ⟨fun ⟨classes, metadata, objects⟩ => ⟨classes, metadata, objects⟩,
      fun resolves => ⟨resolves.classes, resolves.metadata, resolves.objects⟩⟩
  · exact fun ⟨classes, metadata, objects⟩ => ⟨classes, metadata, objects⟩

/-! ## References on their own -/

/-- Everything that a piece of code refers to can be resolved for a live class. -/
structure Resolvable (image : Image) (table : Engine.Table) (view : ClassView) (codeId : Nat)
    (detail : Blob.CodeDetail) : Prop where
  classes : ∀ index ∈ detail.classRefs, ∃ name klass,
    image.library.metaspaceName index.toNat = .ok name ∧
      index.toNat < image.library.header.metaspaceSize.toNat ∧
        table (.findClass name view.loader) = some klass
  metadata : ∀ localIndex ∈ List.range detail.metadataNames.length, ∃ descriptor index value,
    metadataSlot image codeId localIndex = .ok (descriptor, index) ∧
      index < image.library.header.metadataSize.toNat ∧
        table (.resolveMetadata descriptor view) = some value
  objects : ∀ index ∈ detail.objectRefs, ∃ descriptor object,
    image.library.objectName index.toNat = .ok descriptor ∧
      index.toNat < image.library.header.objectSize.toNat ∧
        table (.resolveObject descriptor) = some object

/-- What the slots hold does not matter if it is what is said about them anyway. -/
theorem supplies_iff {described : Except Error (String × Nat)} {answer : String → Option α}
    {slots : Got α} (agrees : ∀ descriptor index value, described = .ok (descriptor, index) →
      slots.get index = some value → answer descriptor = some value) :
    Supplies described answer slots ↔ ∃ descriptor index value,
      described = .ok (descriptor, index) ∧ index < slots.size ∧ answer descriptor = some value := by
  constructor
  · rintro ⟨descriptor, index, named, inside, ⟨value, held⟩ | ⟨value, told⟩⟩
    · exact ⟨descriptor, index, value, named, inside, agrees _ _ _ named held⟩
    · exact ⟨descriptor, index, value, named, inside, told⟩
  · rintro ⟨descriptor, index, value, named, inside, told⟩
    exact ⟨descriptor, index, named, inside, .inr ⟨value, told⟩⟩

theorem supplies_at {index : Nat} {named : Except Error String} {answer : String → Option α}
    {slots : Got α} (agrees : ∀ descriptor value, named = .ok descriptor →
      slots.get index = some value → answer descriptor = some value) :
    Supplies (describedAt index named) answer slots ↔ ∃ descriptor value,
      named = .ok descriptor ∧ index < slots.size ∧ answer descriptor = some value := by
  rw [supplies_iff fun descriptor other value described held => by
    obtain ⟨named, rfl⟩ := describedAt_ok.mp described
    exact agrees descriptor value named held]
  constructor
  · rintro ⟨descriptor, other, value, described, inside, told⟩
    obtain ⟨named, rfl⟩ := describedAt_ok.mp described
    exact ⟨descriptor, value, named, inside, told⟩
  · rintro ⟨descriptor, value, named, inside, told⟩
    exact ⟨descriptor, index, value, describedAt_ok.mpr ⟨named, rfl⟩, inside, told⟩

/-- Over tables that hold nothing but answers it does not matter what they hold. -/
theorem Agrees.resolves (agrees : Agrees image table view codes before) (own : codes codeId)
    (detail : Blob.CodeDetail) :
    Resolves image table view before codeId detail ↔ Resolvable image table view codeId detail := by
  have classes (index : Nat) : Supplies (describedAt index (image.library.metaspaceName index))
      (fun name => table (.findClass name view.loader)) before.metaspace ↔ _ :=
    supplies_at fun name klass => agrees.metaspace name index klass
  have objects (index : Nat) : Supplies (describedAt index (image.library.objectName index))
      (fun descriptor => table (.resolveObject descriptor)) before.objects ↔ _ :=
    supplies_at fun descriptor object => agrees.objects descriptor index object
  have metadata (localIndex : Nat) : Supplies (metadataSlot image codeId localIndex)
      (fun descriptor => table (.resolveMetadata descriptor view)) before.metadata ↔ _ :=
    supplies_iff fun descriptor index value =>
      agrees.metadata codeId localIndex descriptor index value own
  rw [agrees.metaspaceSize] at classes
  rw [agrees.metadataSize] at metadata
  rw [agrees.objectSize] at objects
  constructor
  · intro resolves
    exact ⟨fun index member => (classes _).mp (resolves.classes index member),
      fun localIndex member => (metadata _).mp (resolves.metadata localIndex member),
      fun index member => (objects _).mp (resolves.objects index member)⟩
  · intro resolvable
    exact ⟨fun index member => (classes _).mpr (resolvable.classes index member),
      fun localIndex member => (metadata _).mpr (resolvable.metadata localIndex member),
      fun index member => (objects _).mpr (resolvable.objects index member)⟩

end References

end Heap

end Precompiled
