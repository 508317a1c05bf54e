import Mathlib.Logic.Function.Basic
import Precompiled.Proofs.Heap.Customs
import Precompiled.Proofs.Heap.Loading
import Precompiled.Proofs.Heap.Parts

/-! The books of a heap. What becomes of a slot is told by its phase and its handle, and
two counters say how often code was published and taken out of use. Operations write to
slots and counters in few ways, each of which is an entry in the books. -/
namespace Precompiled.Heap

variable {image : Image} {cell before after : Cell} {codeId : Nat} {slot : Slot}

/-! ## Entries -/

/-- A book about slots that are told apart by `ι`. -/
structure Book (ι : Type) where
  slot? : ι → Option (Slot.Phase × Option LinkedCode)
  published : Nat
  invalidated : Nat

def Cell.book (cell : Cell) : Book Nat where
  slot? := cell.state.slot?
  published := cell.counters.methodsPublished
  invalidated := cell.counters.methodsInvalidated

/-- Questions that tell the engine about no slot. -/
def Question.Uncounted : Question → Prop
  | .engine (.install _) | .engine (.deoptimize _) => False
  | _ => True

section Entries

variable {ι : Type} [DecidableEq ι]

/-- The book after something was entered for a slot. -/
def Book.enter (book : Book ι) (place : ι) (phase : Slot.Phase) (handle : Option LinkedCode) :
    Book ι :=
  { book with slot? := Function.update book.slot? place (some (phase, handle)) }

/-- What happens to a slot without a question. -/
inductive Booking (book : Book ι) : Book ι → Prop where
  /-- Nothing. -/
  | none : Booking book book
  /-- The slot is taken out of use, and there is no code to be told about. -/
  | fall {place : ι} {phase : Slot.Phase} {handle : Option LinkedCode}
    (found : book.slot? place = some (phase, handle)) (alive : phase ≠ .invalidated)
    (quiet : phase = .resolved → handle = none) :
    Booking book
      { book.enter place .invalidated handle with invalidated := book.invalidated + 1 }
  /-- Code comes too late to a slot that claims to hold some. -/
  | stray {place : ι} (code : LinkedCode) (found : book.slot? place = some (.resolved, none)) :
    Booking book (book.enter place .resolved (some code))

/-- What happens to a slot right before a question. The slots of the heap that asks are
found in the book at `place`. -/
inductive Posting (place : Nat → ι) (book : Book ι) : Question → Book ι → Prop where
  | install {code : LinkedCode} (found : book.slot? (place code.codeId) = some (.unresolved, none)) :
    Posting place book (.engine (.install code))
      { book.enter (place code.codeId) .resolved (some code) with published := book.published + 1 }
  | deoptimize {codeId : Nat} {code : LinkedCode}
    (found : book.slot? (place codeId) = some (.resolved, some code))
    (method : code.isStub = false) :
    Posting place book (.engine (.deoptimize code))
      { book.enter (place codeId) .invalidated (some code) with
        invalidated := book.invalidated + 1 }
  | plain {question : Question} (uncounted : question.Uncounted) :
    Posting place book question book

end Entries

/-- How work on a heap is entered in its books. -/
def books : Conduct surroundings Cell where
  change _ before after := Booking before.book after.book
  question _ question before after := Posting id before.book question after.book
  rely _ _ := True

/-- How operations are. -/
def engineBooks : Conduct Engine.signature Cell where
  change _ before after := Booking before.book after.book
  question _ request before after := Posting id before.book (.engine request) after.book
  rely _ _ := True

/-! ## Single slots -/

theorem book_found (found : cell.state.slots[codeId]? = some slot) :
    cell.book.slot? codeId = some (slot.phase, slot.handle) :=
  slot?_eq_some.mpr ⟨slot, found, rfl, rfl⟩

/-- Writing to a slot is entered for that slot. -/
theorem book_set (found : cell.state.slots[codeId]? = some slot) (later : Slot)
    (counters : Counters) (journal : Journal) :
    Cell.book ⟨{ cell.state with slots := cell.state.slots.set codeId later }, counters, journal⟩ =
      { cell.book.enter codeId later.phase later.handle with
        published := counters.methodsPublished, invalidated := counters.methodsInvalidated } := by
  simp only [Cell.book, Book.enter, Book.mk.injEq, and_true]
  funext other
  rw [slot?_set found, Function.update_apply]

/-- Counting code towards the bounds is not entered. -/
theorem admitCode_book (code : LinkedCode) (state : State) (counters : Counters)
    (journal : Journal) :
    Cell.book ⟨(state.admitCode image code).2, counters, journal⟩ =
      Cell.book ⟨state, counters, journal⟩ := by
  simp only [Cell.book, Book.mk.injEq, and_true]
  exact funext (admitCode_slot? image code state).2

theorem Booking.of_same (same : after.book = before.book) : Booking before.book after.book :=
  same ▸ .none

/-- Writing to a slot what it holds is not entered. -/
theorem Booking.of_set (found : cell.state.slots[codeId]? = some slot) :
    Booking cell.book (Cell.book { cell with
      state := { cell.state with slots := cell.state.slots.set codeId slot } }) := by
  rw [State.set_same found]
  exact .none

theorem ask_books {request : Engine.Request} (uncounted : Question.Uncounted (.engine request)) :
    (Operation.ask request).Follows engineBooks := by
  have asks : (Operation.ask request).Obeys engineBooks fun heard answer _ => heard request answer :=
    Action.obeys_ask fun _ _ => .plain uncounted
  exact asks.follows

/-- What leaves slots and the counters of methods alone needs no entry. -/
theorem update_books {step : Cell → Cell} (same : ∀ cell, (step cell).book = cell.book) :
    (Action.update step : Operation Unit).Follows engineBooks :=
  Action.follows_update fun _ cell => .of_same (same cell)

theorem resolve_books {α : Type} {part : Part (Got α) Cell} {index : Nat}
    {resolve : Operation (Option α)} (resolves : resolve.Follows engineBooks)
    (same : ∀ table cell, (part.set table cell).book = cell.book) :
    (Got.getOrResolve part index resolve).Follows engineBooks :=
  Got.follows_getOrResolve (fun _ _ => True) resolves fun _ _ cell _ => .of_same (same _ cell)

/-- Code that is published is entered before the engine is told to install it. -/
theorem publish_books (code : LinkedCode) : (publish image code).Follows engineBooks := by
  intro heard cell
  simp only [publish, Operation.changeSlot, Operation.change, Action.bind_apply, Action.step_apply,
    Dialogue.bind_done]
  cases found : cell.state.slots[code.codeId]? with
  | none => exact ⟨.single .none, trivial⟩
  | some slot =>
    have entry := book_found found
    have same := Booking.of_set found
    obtain ⟨phase, handle, admitted⟩ := slot
    cases phase with
    | invalidated => exact ⟨.single same, trivial⟩
    | resolved =>
      cases handle with
      | none =>
        refine ⟨.single ?_, trivial⟩
        show Booking _ (Cell.book ⟨_, cell.counters, cell.journal⟩)
        rw [book_set found]
        exact .stray code entry
      | some winner => exact ⟨.single same, trivial⟩
    | unresolved =>
      cases handle with
      | none =>
        refine ⟨⟨cell, .refl, ?_⟩, fun _ _ _ _ _ _ => ⟨.refl, trivial⟩⟩
        show Posting id _ _ (Cell.book ⟨(State.admitCode image code _).2, _, _⟩)
        rw [admitCode_book, book_set found]
        exact .install entry
      | some other => exact ⟨.single same, trivial⟩

/-- A slot that is taken out of use is entered before the engine is told. -/
theorem invalidateCode_books (codeId : Nat) : (invalidateCode codeId).Follows engineBooks := by
  intro heard cell
  simp only [invalidateCode, Operation.changeSlot, Operation.change, Action.bind_apply,
    Action.step_apply, Dialogue.bind_done]
  cases found : cell.state.slots[codeId]? with
  | none => exact ⟨.single .none, trivial⟩
  | some slot =>
    have entry := book_found found
    obtain ⟨bound, -⟩ := List.getElem?_eq_some_iff.mp found
    have same := Booking.of_set found
    obtain ⟨phase, handle, admitted⟩ := slot
    by_cases stub : handle.any LinkedCode.isStub
    · have outcome : Slot.invalidate ⟨phase, handle, admitted⟩ = (.stub, ⟨phase, handle, admitted⟩) := by
        simp [Slot.invalidate, stub]
      simp only [outcome]
      exact ⟨.single same, trivial⟩
    cases phase with
    | invalidated =>
      have outcome : Slot.invalidate ⟨.invalidated, handle, admitted⟩ =
          (.alreadyInvalidated, ⟨.invalidated, handle, admitted⟩) := by
        simp [Slot.invalidate, stub]
      simp only [outcome]
      exact ⟨.single same, trivial⟩
    | unresolved =>
      have outcome : Slot.invalidate ⟨.unresolved, handle, admitted⟩ =
          (.invalidated false, ⟨.invalidated, handle, admitted⟩) := by
        simp [Slot.invalidate, stub]
      simp only [outcome]
      refine ⟨.single ?_, trivial⟩
      show Booking _ (Cell.book ⟨_, _, cell.journal⟩)
      rw [book_set found]
      exact .fall entry (by simp) (by simp)
    | resolved =>
      have outcome : Slot.invalidate ⟨.resolved, handle, admitted⟩ =
          (.invalidated true, ⟨.invalidated, handle, admitted⟩) := by
        simp [Slot.invalidate, stub]
      have present : (cell.state.slots.set codeId ⟨.invalidated, handle, admitted⟩)[codeId]?.bind
          Slot.handle = handle := by
        simp [bound]
      simp only [outcome, countInvalidated, Operation.count, Operation.look, Action.bind_apply,
        Action.update_apply, Action.read_apply, Dialogue.bind_done, present]
      cases handle with
      | none =>
        refine ⟨.single ?_, trivial⟩
        show Booking _ (Cell.book ⟨_, _, cell.journal⟩)
        rw [book_set found]
        exact .fall entry (by simp) fun _ => rfl
      | some code =>
        refine ⟨⟨cell, .refl, ?_⟩, fun _ _ _ _ _ _ => ⟨.refl, trivial⟩⟩
        show Posting id _ _ (Cell.book ⟨_, _, _⟩)
        rw [book_set found]
        exact .deoptimize entry (by simpa using stub)

theorem retireCode_books (codeId : Nat) : (retireCode codeId).Follows engineBooks := by
  intro heard cell
  simp only [retireCode, Operation.changeSlot, Operation.change, Action.bind_apply,
    Action.step_apply, Dialogue.bind_done]
  cases found : cell.state.slots[codeId]? with
  | none => exact ⟨.single .none, trivial⟩
  | some slot =>
    have entry := book_found found
    have same := Booking.of_set found
    obtain ⟨phase, handle, admitted⟩ := slot
    cases phase with
    | unresolved =>
      refine ⟨.single ?_, trivial⟩
      show Booking _ (Cell.book ⟨_, _, cell.journal⟩)
      rw [book_set found]
      exact .fall entry (by simp) (by simp)
    | resolved => exact ⟨.single same, trivial⟩
    | invalidated => exact ⟨.single same, trivial⟩

/-! ## Operations and tasks -/

/-- Whatever is made of the parts is entered in the books. -/
theorem made_books {licence : Licence} {α : Type} {operation : Operation α}
    (made : Made image licence operation) : operation.Follows engineBooks := by
  induction made with
  | pure value => exact Action.follows_pure value
  | bind head tail headIh tailIh => exact Action.Follows.bind headIh tailIh
  | look view => exact Action.follows_read _
  | note level topic text => exact update_books fun _ => rfl
  | count beside =>
    refine update_books fun cell => ?_
    obtain ⟨published, invalidated⟩ := beside cell.counters
    simp [Cell.book, published, invalidated]
  | bindings only =>
    refine update_books fun cell => ?_
    rw [only]
    rfl
  | counted code => exact fun heard cell => ⟨.single (.of_same (admitCode_book code _ _ _)), trivial⟩
  | invalidate codeId => exact invalidateCode_books codeId
  | retire codeId => exact retireCode_books codeId
  | metaspace named loader => exact resolve_books (ask_books trivial) fun _ _ => rfl
  | metadata named holder => exact resolve_books (ask_books trivial) fun _ _ => rfl
  | object named => exact resolve_books (ask_books trivial) fun _ _ => rfl
  | findMethod holder name => exact ask_books trivial
  | publish permitted code => exact publish_books code
  | rewrite permitted silent =>
    intro heard cell
    obtain ⟨value, after, ran, rewritten⟩ := silent cell
    rw [ran]
    refine ⟨.single (.of_same ?_), trivial⟩
    rw [rewritten]
    rfl
  | findRoutine permitted name => exact ask_books trivial
  | gate permitted only =>
    refine update_books fun cell => ?_
    rw [only]
    rfl

/-- What operations do is entered in the same way inside larger surroundings. -/
theorem books_lift {α : Type} {known : Engine.signature.Heard} {heard : surroundings.Heard}
    {dialogue : Dialogue Engine.signature Cell α}
    (obeys : dialogue.Obeys engineBooks (fun _ _ _ => True) known before)
    (all : ∀ request answer, known request answer) :
    (dialogue.answeredBy fun request => Action.ask (S := surroundings) (.engine request)).Obeys books
      (fun _ _ _ => True) heard before := by
  induction dialogue generalizing heard before with
  | done result state => exact ⟨obeys.1, trivial⟩
  | ask request state resume ih =>
    obtain ⟨⟨middle, changes, asked⟩, resumed⟩ := obeys
    refine ⟨⟨middle, changes, asked⟩, fun later answer after more told onward => ?_⟩
    exact ih answer after (resumed known answer after le_rfl (all request answer) trivial)

/-- Showing something is not entered. -/
theorem show_books {question : Question} (uncounted : question.Uncounted) :
    (Action.ask (S := surroundings) question).Follows books := by
  have asks : (Action.ask (S := surroundings) question).Obeys books
      fun heard answer _ => heard question answer :=
    Action.obeys_ask fun _ _ => .plain uncounted
  exact asks.follows

/-- Whatever a task does is entered in the books. -/
theorem task_books (task : Task) : (task.perform image).Follows books := by
  cases task with
  | call call =>
    intro heard cell
    have made : Made image .full (Heap.perform image call) :=
      perform_made ⟨fun _ => trivial, fun _ => trivial, fun _ => trivial⟩
    exact books_lift (made_books made (fun _ _ => True) cell) fun _ _ => trivial
  | collect =>
    refine Action.Follows.bind ?_ fun visits => Action.follows_pure _
    refine Got.follows_updateEach (fun _ _ _ => True) ?_ fun _ _ _ _ _ _ => .of_same rfl
    exact fun index object cell _ heard => show_books (by trivial) heard cell
  | methods => exact visitMethods_follows fun _ _ heard cell _ => show_books (by trivial) heard cell
  | metadata =>
    exact visitMethods_follows fun _ _ heard cell _ =>
      visitEach_follows (fun _ _ heard cell _ => show_books (by trivial) heard cell) _ heard cell
  | entries =>
    refine Action.Follows.bind (Action.follows_read _) fun classes => ?_
    refine Action.Follows.bind
      (visitEach_follows (fun _ _ heard cell _ => show_books (by trivial) heard cell) _) fun _ => ?_
    refine Action.Follows.bind (Action.follows_read _) fun metadata => ?_
    exact visitEach_follows (fun _ _ heard cell _ => show_books (by trivial) heard cell) _

end Precompiled.Heap
