import Precompiled.Proofs.Session.Hosting

/-! The books of a session. A slot of a session is a slot of the heap at some position.
What a heap enters in its own book is entered in the book of the session for the slot at
its position, and an offer adds the slots of at most one new heap. -/
namespace Precompiled.Session

open Relation (ReflTransGen)

variable {session before after : Session} {position : Nat} {cell later : Heap.Cell}

/-! ## The book of a session -/

/-- Where a slot is: the position of its heap, and its code id. -/
abbrev Place := Nat × Nat

/-- Phase and handle of a slot. -/
def slot? (session : Session) (place : Place) : Option (Slot.Phase × Option LinkedCode) :=
  session.heaps[place.1]?.bind fun heap => heap.state.slot? place.2

def book (session : Session) : Heap.Book Place where
  slot? := session.slot?
  published := session.counters.methodsPublished
  invalidated := session.counters.methodsInvalidated

theorem slot?_of_get (present : position < session.heaps.length) (codeId : Nat) :
    session.slot? (position, codeId) = ((Session.cell position).get session).book.slot? codeId := by
  simp [slot?, Session.cell, Heap.Cell.book, List.getElem?_eq_getElem present]

theorem slot?_set (present : position < session.heaps.length) (place : Place) :
    ((Session.cell position).set cell session).slot? place =
      if place.1 = position then cell.book.slot? place.2 else session.slot? place := by
  obtain ⟨other, codeId⟩ := place
  by_cases own : other = position
  · subst own
    have inside := (length_set other cell session).symm ▸ present
    rw [slot?_of_get inside, get_set present, if_pos rfl]
  · simp [slot?, Session.cell, own, Ne.symm own]

/-- The book of the session after a heap did some work. -/
theorem book_set (present : position < session.heaps.length) :
    ((Session.cell position).set cell session).book =
      ⟨fun place => if place.1 = position then cell.book.slot? place.2 else session.slot? place,
        cell.book.published, cell.book.invalidated⟩ := by
  simp only [book, Heap.Book.mk.injEq]
  exact ⟨funext fun place => slot?_set present place, rfl, rfl⟩

/-- Without an entry the book of the session is the same as well. -/
theorem book_same (present : position < session.heaps.length)
    (same : cell.book = ((Session.cell position).get session).book) :
    ((Session.cell position).set cell session).book = session.book := by
  rw [book_set present, same]
  simp only [book, Heap.Book.mk.injEq]
  refine ⟨funext fun place => ?_, rfl, rfl⟩
  obtain ⟨other, codeId⟩ := place
  by_cases own : other = position
  · subst own
    simp [slot?_of_get present]
  · simp [own]

/-- What a heap enters for a slot is entered in the book of the session for the slot at its
position. -/
theorem book_enter (present : position < session.heaps.length) {codeId : Nat}
    {phase : Slot.Phase} {handle : Option LinkedCode} {published invalidated : Nat}
    (entered : cell.book =
      { ((Session.cell position).get session).book.enter codeId phase handle with
        published, invalidated }) :
    ((Session.cell position).set cell session).book =
      { session.book.enter (position, codeId) phase handle with published, invalidated } := by
  rw [book_set present, entered]
  simp only [book, Heap.Book.enter, Heap.Book.mk.injEq, and_true]
  funext place
  obtain ⟨other, number⟩ := place
  by_cases own : other = position
  · subst own
    simp [Function.update_apply, slot?_of_get present]
  · simp [own]

theorem booking_set (present : position < session.heaps.length)
    (booked : Heap.Booking ((Session.cell position).get session).book cell.book) :
    Heap.Booking session.book ((Session.cell position).set cell session).book := by
  generalize entered : cell.book = entry at booked
  cases booked with
  | none =>
    rw [book_same present entered]
    exact .none
  | fall found alive quiet =>
    rw [book_enter present entered]
    rw [← slot?_of_get present] at found
    exact .fall found alive quiet
  | stray code found =>
    rw [book_enter present entered]
    rw [← slot?_of_get present] at found
    exact .stray code found

theorem posting_set {question : Heap.Question} (present : position < session.heaps.length)
    (posted : Heap.Posting id ((Session.cell position).get session).book question cell.book) :
    Heap.Posting (fun codeId => (position, codeId)) session.book question
      ((Session.cell position).set cell session).book := by
  generalize entered : cell.book = entry at posted
  cases posted with
  | install found =>
    rw [book_enter present entered]
    rw [← slot?_of_get present] at found
    exact .install found
  | deoptimize found method =>
    rw [book_enter present entered]
    rw [← slot?_of_get present] at found
    exact .deoptimize found method
  | plain uncounted =>
    rw [book_same present entered]
    exact .plain uncounted

/-! ## Customs -/

/-- What happens to a session without a question. -/
inductive Turn (before after : Session) : Prop where
  | work (booked : Heap.Booking before.book after.book) (same : after.libraries = before.libraries)
  | enrol (fresh : List Heap) (built : ∀ heap ∈ fresh, build heap.image.library = .ok heap)
    (grown : after.heaps = before.heaps ++ fresh) (same : after.counters = before.counters)

/-- What happens to a session right before a question. -/
structure Poses (question : surroundings.Request) (before after : Session) : Prop where
  posted : Heap.Posting (fun codeId => (question.1, codeId)) before.book question.2 after.book
  same : after.libraries = before.libraries

/-- How tasks are entered in the book of the session. Others may register libraries. -/
def turns : Conduct surroundings Session where
  change _ := Turn
  question _ := Poses
  rely before after := before.libraries <+: after.libraries

def customs : service.Customs where
  change _ := turns.change
  question _ := turns.question
  rely := turns.rely
  reply _ _ _ _ := True

theorem present_later (present : position < before.heaps.length)
    (onward : before.libraries <+: after.libraries) : position < after.heaps.length := by
  have longer := onward.length_le
  simp only [libraries, List.length_map] at longer
  omega

/-- What the heaps enter in their books is entered in the book of the session. -/
theorem turns_hosts : Hosts (fun _ => Heap.books) turns fun _ => True where
  changed {position session heap cell _} _ _ found booked := by
    obtain ⟨present, -⟩ := List.getElem?_eq_some_iff.mp found
    exact ⟨.work (booking_set present booked) (libraries_work session position cell), trivial⟩
  asked {position session heap cell _ _} _ _ found posted := by
    obtain ⟨present, -⟩ := List.getElem?_eq_some_iff.mp found
    exact ⟨⟨posting_set present posted, libraries_work session position cell⟩, trivial⟩
  relied _ onward := by
    refine ⟨trivial, fun position heap found => ?_⟩
    obtain ⟨present, -⟩ := List.getElem?_eq_some_iff.mp found
    exact ⟨_, List.getElem?_eq_getElem (present_later present onward), rfl, trivial⟩

/-- Every task keeps to the customs of its session. -/
theorem customs_kept : customs.Kept fun _ => True where
  performed task _ := by
    intro heard session
    cases task with
    | one position task =>
      exact (turns_hosts.taskAt (fun _ => Heap.task_books task) position trivial).weaken
        fun _ _ _ _ _ => trivial
    | all task =>
      exact (turns_hosts.taskEach (fun _ => Heap.task_books task) _ trivial).weaken
        fun _ _ _ _ _ => trivial
    | offer made =>
      obtain ⟨fresh, built, grown, same⟩ := offer_enrols session made
      exact ⟨.single (.enrol fresh built grown same), trivial⟩
  steady session := List.prefix_refl _
  lasting early late := early.trans late
  changed _ change := by
    cases change with
    | work booked same => exact ⟨[], by rw [same, List.append_nil]⟩
    | enrol fresh built grown same =>
      refine ⟨fresh.map fun heap => heap.image.library, ?_⟩
      simp [libraries, grown]
  asked _ posed := ⟨[], by rw [posed.same, List.append_nil]⟩
  drifted drifted := by
    rw [drifted]
    exact List.prefix_refl _

end Precompiled.Session
