import Mathlib.Data.List.Nodup
import Precompiled.Proofs.Session.Books

/-! Balanced books. A book agrees with what the engine was told if the slots that were
installed are those that hold a handle, stubs apart, and the slots that were deoptimized
those that were invalidated with a handle; the counters say how many slots there are of
each kind. Every entry keeps the balance. -/
namespace Precompiled

open Heap (Book Booking Posting)

/-! ## Slots in a book -/

namespace Heap.Book

variable {ι : Type} {book later : Book ι} {place : ι} {phase : Slot.Phase}
  {handle : Option LinkedCode}

/-- Whether a slot holds a handle. -/
def holds (book : Book ι) (place : ι) : Bool :=
  (book.slot? place).any fun slot => slot.2.isSome

/-- Whether a slot was invalidated. -/
def dead (book : Book ι) (place : ι) : Bool :=
  (book.slot? place).any fun slot => decide (slot.1 = .invalidated)

theorem holds_of_slot (found : book.slot? place = some (phase, handle)) :
    book.holds place = handle.isSome := by
  simp [holds, found]

theorem dead_of_slot (found : book.slot? place = some (phase, handle)) :
    book.dead place = decide (phase = .invalidated) := by
  simp [dead, found]

variable [DecidableEq ι]

/-- What was entered for a slot is found there, and the other slots are as before. -/
def Entered (place : ι) (phase : Slot.Phase) (handle : Option LinkedCode) (book later : Book ι) :
    Prop :=
  ∀ other, later.slot? other = if other = place then some (phase, handle) else book.slot? other

namespace Entered

variable (entered : Entered place phase handle book later) (other : ι)
include entered

theorem holds : later.holds other = if other = place then handle.isSome else book.holds other := by
  unfold Book.holds
  rw [entered]
  split <;> rfl

theorem dead :
    later.dead other = if other = place then decide (phase = .invalidated) else book.dead other := by
  unfold Book.dead
  rw [entered]
  split <;> rfl

end Entered

end Heap.Book

namespace Session

/-! ## Lists of slots -/

/-- The list names every slot that was chosen, once, and no other. -/
structure Lists (places : List Place) (chosen : Place → Bool) : Prop where
  once : places.Nodup
  mem : ∀ place, place ∈ places ↔ chosen place

namespace Lists

variable {places all : List Place} {chosen later : Place → Bool} {place : Place}

theorem same (lists : Lists places chosen) (same : ∀ other, later other = chosen other) :
    Lists places later :=
  ⟨lists.once, fun other => by rw [same]; exact lists.mem other⟩

/-- One more slot is chosen. -/
theorem cons (lists : Lists places chosen) (before : chosen place = false)
    (now : later place = true) (others : ∀ other, other ≠ place → later other = chosen other) :
    Lists (place :: places) later where
  once := List.nodup_cons.mpr
    ⟨fun among => Bool.false_ne_true (before.symm.trans ((lists.mem place).mp among)), lists.once⟩
  mem other := by
    by_cases same : other = place
    · simp [same, now]
    · simp [same, others other same, lists.mem]

/-- Among all slots there are as many chosen ones as are named. -/
theorem length_eq (lists : Lists places chosen) (once : all.Nodup)
    (among : ∀ place, chosen place → place ∈ all) : places.length = all.countP chosen := by
  rw [List.countP_eq_length_filter]
  refine ((List.perm_ext_iff_of_nodup lists.once (once.filter _)).mpr fun place => ?_).length_eq
  rw [List.mem_filter, lists.mem]
  exact ⟨fun known => ⟨among place known, known⟩, And.right⟩

end Lists

/-! ## What is told to the engine -/

/-- The slot whose code the engine is told to install. -/
def installation : surroundings.Request → Option Place
  | (position, .engine (.install code)) => some (position, code.codeId)
  | _ => none

/-- The slot whose code the engine is told to leave. -/
def farewell : surroundings.Request → Option Place
  | (position, .engine (.deoptimize code)) => some (position, code.codeId)
  | _ => none

theorem uncounted_silent (position : Nat) {question : Heap.Question}
    (uncounted : question.Uncounted) :
    installation (position, question) = none ∧ farewell (position, question) = none := by
  cases question with
  | engine request => cases request <;> first | exact uncounted.elim | exact ⟨rfl, rfl⟩
  | _ => exact ⟨rfl, rfl⟩

/-! ## The balance of a book -/

/-- What is true of a slot at all times, where `stub` tells whether it was given a stub in
the beginning. -/
structure Tidy (stub : Bool) (codeId : Nat) (phase : Slot.Phase) (handle : Option LinkedCode) :
    Prop where
  resolved : phase = .resolved → handle ≠ none
  held : ∀ code, handle = some code → phase ≠ .unresolved ∧ code.codeId = codeId
  stub : stub = true → phase = .resolved ∧ ∃ code, handle = some code ∧ code.isStub = true

/-- The book agrees with what the engine was told. -/
structure Balance (stub : Place → Bool) (book : Book Place) (installs deoptimizations : List Place) :
    Prop where
  tidy : ∀ place phase handle, book.slot? place = some (phase, handle) →
    Tidy (stub place) place.2 phase handle
  installed : Lists installs fun place => book.holds place && !stub place
  deoptimized : Lists deoptimizations fun place => book.dead place && book.holds place
  invalidated : ∃ fallen, Lists fallen book.dead ∧ fallen.length = book.invalidated
  published : book.published = installs.length

namespace Balance

variable {stub : Place → Bool} {book later : Book Place} {installs deoptimizations : List Place}
  {place : Place} {phase : Slot.Phase} {handle : Option LinkedCode} {code : LinkedCode}

section

variable (balance : Balance stub book installs deoptimizations)
include balance

theorem tidy_entered (entered : book.Entered place phase handle later)
    (own : Tidy (stub place) place.2 phase handle) :
    ∀ other phase handle, later.slot? other = some (phase, handle) →
      Tidy (stub other) other.2 phase handle := by
  intro other newPhase newHandle there
  rw [entered] at there
  split at there
  · rename_i same
    cases there
    exact same ▸ own
  · exact balance.tidy _ _ _ there

/-- An unresolved slot was given no stub. -/
theorem unresolved_stub (found : book.slot? place = some (.unresolved, handle)) :
    stub place = false :=
  Bool.eq_false_iff.mpr fun given => nomatch ((balance.tidy _ _ _ found).stub given).1

/-- A slot with code that is no stub was given no stub. -/
theorem method_stub (found : book.slot? place = some (phase, some code))
    (method : code.isStub = false) : stub place = false := by
  refine Bool.eq_false_iff.mpr fun given => ?_
  obtain ⟨-, _, ⟨⟩, isStub⟩ := (balance.tidy _ _ _ found).stub given
  simp [method] at isStub

/-- As long as its handle stays, a slot was installed or it was not. -/
theorem installed_same (found : book.slot? place = some (phase, handle))
    (entered : book.Entered place .invalidated handle later) :
    Lists installs fun place => later.holds place && !stub place :=
  balance.installed.same fun other => by
    by_cases same : other = place
    · simp [entered.holds, same, Book.holds_of_slot found]
    · simp [entered.holds, same]

/-- A slot that falls is counted. -/
theorem invalidated_succ (found : book.slot? place = some (phase, handle))
    (alive : phase ≠ .invalidated) (entered : book.Entered place .invalidated handle later)
    (invalidated : later.invalidated = book.invalidated + 1) :
    ∃ fallen, Lists fallen later.dead ∧ fallen.length = later.invalidated := by
  obtain ⟨fallen, lists, counted⟩ := balance.invalidated
  refine ⟨place :: fallen, lists.cons ?_ ?_ fun other apart => ?_, ?_⟩
  · simp [Book.dead_of_slot found, alive]
  · simp [entered.dead]
  · simp [entered.dead, apart]
  · rw [List.length_cons, counted, invalidated]

/-- A slot without a handle falls. -/
theorem fall (found : book.slot? place = some (.unresolved, none))
    (entered : book.Entered place .invalidated none later)
    (published : later.published = book.published)
    (invalidated : later.invalidated = book.invalidated + 1) :
    Balance stub later installs deoptimizations where
  tidy := balance.tidy_entered entered
    ⟨nofun, nofun, fun given => absurd given (by simp [balance.unresolved_stub found])⟩
  installed := balance.installed_same found entered
  deoptimized := balance.deoptimized.same fun other => by
    by_cases same : other = place
    · simp [entered.holds, same, Book.holds_of_slot found]
    · simp [entered.holds, entered.dead, same]
  invalidated := balance.invalidated_succ found nofun entered invalidated
  published := published.trans balance.published

/-- Code is installed in a free slot. -/
theorem install (found : book.slot? place = some (.unresolved, none)) (number : code.codeId = place.2)
    (entered : book.Entered place .resolved (some code) later)
    (published : later.published = book.published + 1)
    (invalidated : later.invalidated = book.invalidated) :
    Balance stub later (place :: installs) deoptimizations where
  tidy := balance.tidy_entered entered
    ⟨nofun, by rintro _ ⟨⟩; exact ⟨nofun, number⟩,
      fun given => absurd given (by simp [balance.unresolved_stub found])⟩
  installed := by
    refine balance.installed.cons ?_ ?_ fun other apart => ?_
    · simp [Book.holds_of_slot found]
    · simp [entered.holds, balance.unresolved_stub found]
    · simp [entered.holds, apart]
  deoptimized := balance.deoptimized.same fun other => by
    by_cases same : other = place
    · simp [entered.dead, same, Book.dead_of_slot found]
    · simp [entered.holds, entered.dead, same]
  invalidated := by
    obtain ⟨fallen, lists, counted⟩ := balance.invalidated
    refine ⟨fallen, lists.same fun other => ?_, counted.trans invalidated.symm⟩
    by_cases same : other = place
    · simp [entered.dead, same, Book.dead_of_slot found]
    · simp [entered.dead, same]
  published := by rw [published, balance.published, List.length_cons]

/-- Code that is no stub is taken out of use. -/
theorem deoptimize (found : book.slot? place = some (.resolved, some code))
    (method : code.isStub = false)
    (entered : book.Entered place .invalidated (some code) later)
    (published : later.published = book.published)
    (invalidated : later.invalidated = book.invalidated + 1) :
    Balance stub later installs (place :: deoptimizations) where
  tidy := by
    have tidy := balance.tidy _ _ _ found
    refine balance.tidy_entered entered ⟨nofun, ?_, fun given => ?_⟩
    · rintro _ ⟨⟩
      exact ⟨nofun, (tidy.held code rfl).2⟩
    · exact absurd given (by simp [balance.method_stub found method])
  installed := balance.installed_same found entered
  deoptimized := by
    refine balance.deoptimized.cons ?_ ?_ fun other apart => ?_
    · simp [Book.dead_of_slot found]
    · simp [entered.holds, entered.dead]
    · simp [entered.holds, entered.dead, apart]
  invalidated := balance.invalidated_succ found nofun entered invalidated
  published := published.trans balance.published

/-- Slots enter the book as they are in the beginning. -/
theorem extend {stubs : Place → Bool}
    (old : ∀ place phase handle, book.slot? place = some (phase, handle) →
      later.slot? place = some (phase, handle) ∧ stubs place = stub place)
    (fresh : ∀ place phase handle, book.slot? place = none →
      later.slot? place = some (phase, handle) →
      Tidy (stubs place) place.2 phase handle ∧ stubs place = handle.isSome ∧ phase ≠ .invalidated)
    (published : later.published = book.published)
    (invalidated : later.invalidated = book.invalidated) :
    Balance stubs later installs deoptimizations := by
  have each : ∀ place, (later.holds place && !stubs place) = (book.holds place && !stub place) ∧
      later.dead place = book.dead place ∧
      (later.dead place && later.holds place) = (book.dead place && book.holds place) := by
    intro place
    simp only [Book.holds, Book.dead]
    cases before : book.slot? place with
    | some slot =>
      obtain ⟨there, same⟩ := old place slot.1 slot.2 before
      simp [there, same]
    | none =>
      cases there : later.slot? place with
      | none => simp
      | some slot =>
        obtain ⟨-, same, alive⟩ := fresh place slot.1 slot.2 before there
        simp [same, alive]
  exact
    { tidy := fun place phase handle there => by
        cases before : book.slot? place with
        | none => exact (fresh place phase handle before there).1
        | some slot =>
          obtain ⟨still, same⟩ := old place slot.1 slot.2 before
          cases still.symm.trans there
          exact same ▸ balance.tidy place _ _ before
      installed := balance.installed.same fun place => (each place).1
      deoptimized := balance.deoptimized.same fun place => (each place).2.2
      invalidated := by
        obtain ⟨fallen, lists, counted⟩ := balance.invalidated
        exact ⟨fallen, lists.same fun place => (each place).2.1, counted.trans invalidated.symm⟩
      published := published.trans balance.published }

/-- Every entry without a question keeps the balance. -/
theorem booking (booked : Booking book later) : Balance stub later installs deoptimizations := by
  cases booked with
  | none => exact balance
  | @fall place phase handle found alive quiet =>
    -- A slot that falls without a word to the engine is unresolved and empty: if it were
    -- resolved it would hold a handle, and `quiet` says that it does not.
    have tidy := balance.tidy _ _ _ found
    cases phase with
    | invalidated => exact absurd rfl alive
    | resolved => exact absurd (quiet rfl) (tidy.resolved rfl)
    | unresolved =>
      cases handle with
      | some code => exact absurd rfl (tidy.held code rfl).1
      | none => exact balance.fall found (fun other => Function.update_apply ..) rfl rfl
  | stray code found => exact absurd rfl ((balance.tidy _ _ _ found).resolved rfl)

/-- Before a question the balance is kept with what the engine is told. -/
theorem posting {position : Nat} {question : Heap.Question}
    (posted : Posting (fun codeId => (position, codeId)) book question later) :
    Balance stub later ((installation (position, question)).toList ++ installs)
      ((farewell (position, question)).toList ++ deoptimizations) := by
  cases posted with
  | install found => exact balance.install found rfl (fun other => Function.update_apply ..) rfl rfl
  | @deoptimize codeId code found method =>
    -- The engine is told the number that the code bears. It is that of the slot.
    obtain rfl := ((balance.tidy _ _ _ found).held code rfl).2
    exact balance.deoptimize found method (fun other => Function.update_apply ..) rfl rfl
  | plain uncounted =>
    obtain ⟨silent, quiet⟩ := uncounted_silent position uncounted
    simpa [silent, quiet] using balance

/-- What is deoptimized was installed. -/
theorem farewell_installed {position : Nat} {question : Heap.Question}
    (posted : Posting (fun codeId => (position, codeId)) book question later)
    (told : farewell (position, question) = some place) : place ∈ installs := by
  cases posted with
  | install found => cases told
  | @deoptimize codeId code found method =>
    obtain rfl := ((balance.tidy _ _ _ found).held code rfl).2
    obtain rfl := Option.some.inj told
    rw [balance.installed.mem]
    simp [Book.holds_of_slot found, balance.method_stub found method]
  | plain uncounted => cases (uncounted_silent position uncounted).2.symm.trans told

end

end Balance

end Session

end Precompiled
