import Precompiled.Proofs.Heap.Creation
import Precompiled.Proofs.Library.Acceptance
import Precompiled.Session

/-! What comes of offering a library to a session, said once for both ways in.
A library is registered if the loader accepts it, its name is free, the gate
lets it pass and a heap can be built for it. Everything else about an offer is
its reply, its number and what it reports. -/
namespace Precompiled.Session

/-- A library offered to a session, from memory or as a file. -/
inductive Offer where
  | memory (data : Bytes) (name : String) (codeBase : Nat)
  | file (data : Option Bytes) (path : String) (codeBase : Nat)

/-- What the session says to an offer: the position of the new heap, nothing,
or the reason for a refusal. -/
abbrev Reply := Except Error (Option Nat)

/-- Makes an offer. -/
def submit : Offer → Update Reply
  | .memory data name codeBase => load data name codeBase
  | .file data path codeBase => loadFile data path codeBase

/-- Makes offers one after the other. -/
def submitAll : List Offer → Update (List Reply)
  | [] => return []
  | offer :: rest => do
    let reply ← submit offer
    return reply :: (← submitAll rest)

/-- What can happen to a session: an offer, or work of one of its heaps, which
leaves a new state behind. -/
inductive Event where
  | offer (offer : Offer)
  | work (position : Nat) (cell : Heap.Cell)

/-- The session after an event. -/
def Event.run : Event → Session → Session
  | .offer made, session => ((submit made).run session).2
  | .work position cell, session => (Session.cell position).set cell session

/-- The session after events that happen one after the other. -/
def after (session : Session) (events : List Event) : Session :=
  events.foldl (fun session event => event.run session) session

variable {session : Session} {offer : Offer} {library : Library} {name : String} {later : Nat}
  {journal : Journal}

/-! ## The verdict on an offer -/

/-- The library that an offer puts before the gate, accepted by the loader under
a name that is free. -/
def Offer.candidate (session : Session) : Offer → Except Error Library
  | .memory data name codeBase =>
    if session.isLoaded name then .error (.duplicate name)
    else Library.accept data name session.nextId
      { verifyChecksum := session.options.verifyChecksum, mapCode := false, codeBase }
  | .file none _ _ => .error .missingFile
  | .file (some data) path codeBase =>
    match Library.accept data (Text.fileName path) session.nextId
      { verifyChecksum := session.options.verifyChecksum, mapCode := true, codeBase } with
    | .error error => .error error
    | .ok library =>
      if session.isLoaded library.name then .error (.duplicate library.name) else .ok library

/-- The heap of a library, without the reports on its making. -/
def build (library : Library) : Except Error Heap :=
  ((Heap.create library).run []).1

/-- What the gate and the making of a heap say to a library, with the shifts
that are agreed on from then on. -/
def judge (session : Session) (library : Library) : Except Error Heap × AgreedShifts :=
  match library.check session.engine session.shifts with
  | (.error error, shifts) => (.error error, shifts)
  | (.ok (), shifts) => (build library, shifts)

/-- The heap an offer leads to or the reason why it leads to none, with the
shifts that are agreed on from then on. -/
def verdict (session : Session) (offer : Offer) : Except Error Heap × AgreedShifts :=
  match offer.candidate session with
  | .error error => (.error error, session.shifts)
  | .ok library => session.judge library

/-- How a session that loads libraries puts a verdict into words. -/
def reply (session : Session) : Except Error Heap → Reply
  | .error error => if session.options.strictLoading then .error error else .ok none
  | .ok _ => .ok (some session.heaps.length)

/-- What an offer comes to under a verdict: the reply is the verdict put into
words, and the session takes over the new heap and the shifts. Numbers may be
used up and reports made besides. -/
def Settles (session : Session) (verdict : Except Error Heap × AgreedShifts)
    (result : Reply × Session) : Prop :=
  ∃ nextId journal, session.nextId ≤ nextId ∧
    (verdict.1.toOption.isSome → session.nextId < nextId) ∧
    result = (session.reply verdict.1,
      { session with
        heaps := session.heaps ++ verdict.1.toOption.toList
        shifts := verdict.2, nextId, journal })

/-! ## The steps of an offer -/

theorem bind_run {α β : Type} (first : Update α) (next : α → Update β) (session : Session) :
    (first >>= next).run session = (next (first.run session).1).run (first.run session).2 :=
  rfl

theorem get_run (session : Session) : (get : Update Session).run session = (session, session) :=
  rfl

theorem takeId_run (session : Session) :
    takeId.run session = (session.nextId, { session with nextId := session.nextId + 1 }) :=
  rfl

theorem reporting_run {α : Type} (reported : Reported α) (session : Session) :
    (reporting reported).run session =
      ((reported.run session.journal).1,
        { session with journal := (reported.run session.journal).2 }) :=
  rfl

theorem create_run (library : Library) (journal : Journal) :
    ∃ told, (Heap.create library).run journal = (build library, told) := by
  have made : ((Heap.create library).run journal).1 = build library := by
    rw [build, Heap.create_outcome, Heap.create_outcome]
  exact ⟨((Heap.create library).run journal).2, Prod.ext made rfl⟩

theorem load_run (data : Bytes) (name : String) (id : Nat) (options : LoadOptions)
    (journal : Journal) :
    ∃ told, (Library.load data name id options).run journal =
      (Library.accept data name id options, told) := by
  unfold Library.load
  cases Library.accept data name id options with
  | error error => exact ⟨_, rfl⟩
  | ok library => exact ⟨_, rfl⟩

/-- The gate gives the verdict of the checks, and takes a library that passes
as it is. -/
theorem verify_run (library : Library) (engine : EngineSettings) (shifts : AgreedShifts)
    (journal : Journal) :
    ∃ kept told, (library.verify engine shifts).run journal =
        (((library.check engine shifts).1, kept, (library.check engine shifts).2), told) ∧
      ((library.check engine shifts).1 = .ok () → kept = library) := by
  unfold Library.verify
  rcases library.check engine shifts with ⟨_ | _, agreed⟩
  · exact ⟨_, _, rfl, nofun⟩
  · exact ⟨library, journal, rfl, fun _ => rfl⟩

/-- A refusal is reported, and changes nothing else. -/
theorem reject_run (error : Error) (session : Session) :
    ∃ journal, (reject error).run session =
      (session.reply (.error error), { session with journal }) := by
  unfold reject Session.reply
  cases strict : session.options.strictLoading with
  | true =>
    exists session.journal
    simp only [bind_run, get_run, strict]
    rfl
  | false =>
    exists session.journal ++ [⟨.warn, .loading, s!"skipping AOT library: {error.message}"⟩]
    simp only [bind_run, get_run, strict]
    rfl

/-- An offer may be refused wherever its number and its reports have led. -/
theorem reject_settles (error : Error) (shifts : AgreedShifts) (numbered : session.nextId ≤ later) :
    Settles session (.error error, shifts)
      ((reject error).run { session with shifts, nextId := later, journal }) := by
  obtain ⟨said, outcome⟩ :=
    reject_run error { session with shifts, nextId := later, journal }
  refine ⟨later, said, numbered, nofun, ?_⟩
  rw [outcome]
  simp [Except.toOption, Session.reply]

/-- What becomes of a library behind the gate. -/
def enrol (library : Library) : Update Reply := do
  match ← reporting (Heap.create library) with
  | .error error => reject error
  | .ok heap =>
    if (← get).isLoaded library.name then reject (.duplicate library.name)
    else
      let position := (← get).heaps.length
      modify fun session => { session with heaps := session.heaps ++ [heap] }
      reporting (Reported.note .info .loading s!"loaded AOT library {library.name}")
      return .ok (some position)

/-- A library under a free name is registered if a heap can be built for it. -/
theorem enrol_settles (shifts : AgreedShifts) (free : session.isLoaded library.name = false)
    (used : session.nextId < later) :
    Settles session (build library, shifts)
      ((enrol library).run { session with shifts, nextId := later, journal }) := by
  obtain ⟨told, made⟩ := create_run library journal
  unfold enrol
  simp only [bind_run, reporting_run, made]
  cases build library with
  | error error => exact reject_settles error shifts (Nat.le_of_lt used)
  | ok heap =>
    have unclaimed : isLoaded { session with shifts, nextId := later, journal := told }
        library.name = false := free
    refine ⟨later, told ++ [⟨.info, .loading, s!"loaded AOT library {library.name}"⟩],
      Nat.le_of_lt used, fun _ => used, ?_⟩
    simp only [bind_run, get_run, unclaimed]
    rfl

/-- A library under a free name is registered exactly if the verdict on it is a
heap. -/
theorem register_settles (free : session.isLoaded library.name = false)
    (used : session.nextId < later) :
    Settles session (session.judge library)
      ((register library).run { session with nextId := later, journal }) := by
  obtain ⟨kept, told, checked, same⟩ :=
    verify_run library session.engine session.shifts journal
  unfold register Session.judge
  simp only [bind_run, get_run, reporting_run, checked]
  revert same
  rcases library.check session.engine session.shifts with ⟨error | done, shifts⟩ <;> intro same
  · exact reject_settles error shifts (Nat.le_of_lt used)
  · obtain rfl := same rfl
    exact enrol_settles shifts free used

/-- An offer comes to what its verdict says, unless loading is disabled. -/
theorem submit_settles (enabled : session.options.enabled = true) (offer : Offer) :
    Settles session (session.verdict offer) ((submit offer).run session) := by
  have used : session.nextId < session.nextId + 1 := Nat.lt_succ_self _
  unfold Session.verdict
  cases offer with
  | memory data name codeBase =>
    obtain ⟨told, read⟩ := load_run data name session.nextId
      { verifyChecksum := session.options.verifyChecksum, mapCode := false, codeBase }
      session.journal
    simp only [submit, Session.load, bind_run, get_run, enabled, Offer.candidate]
    by_cases taken : session.isLoaded name = true
    · simp only [taken, if_true]
      exact reject_settles (.duplicate name) session.shifts (Nat.le_refl _)
    · simp only [taken, Bool.not_true, Bool.false_eq_true, if_false, bind_run, takeId_run,
        reporting_run, read]
      rcases accepted : Library.accept data name session.nextId _ with error | library
      · exact reject_settles error session.shifts (Nat.le_of_lt used)
      · obtain rfl : library.name = name := (Library.accept_ok.mp accepted).named
        exact register_settles (Bool.eq_false_iff.mpr taken) used
  | file data path codeBase =>
    cases data with
    | none =>
      simp only [submit, Session.loadFile, bind_run, get_run, enabled, Offer.candidate]
      exact reject_settles .missingFile session.shifts (Nat.le_of_lt used)
    | some data =>
      obtain ⟨told, read⟩ := load_run data (Text.fileName path) session.nextId
        { verifyChecksum := session.options.verifyChecksum, mapCode := true, codeBase }
        session.journal
      simp only [submit, Session.loadFile, Library.loadFile, bind_run, get_run, enabled,
        Offer.candidate, Bool.not_true, Bool.false_eq_true, if_false, takeId_run, reporting_run,
        read]
      rcases accepted : Library.accept data (Text.fileName path) session.nextId _ with
        error | library
      · exact reject_settles error session.shifts (Nat.le_of_lt used)
      · have same : isLoaded { session with nextId := session.nextId + 1, journal := told }
            library.name = session.isLoaded library.name := rfl
        simp only [bind_run, get_run, same]
        by_cases taken : session.isLoaded library.name = true
        · simp only [taken, if_true]
          exact reject_settles (.duplicate library.name) session.shifts (Nat.le_of_lt used)
        · simp only [taken, Bool.false_eq_true, if_false]
          exact register_settles (Bool.eq_false_iff.mpr taken) used

/-- Where loading is disabled an offer changes nothing. -/
theorem submit_disabled (disabled : session.options.enabled = false) (offer : Offer) :
    (submit offer).run session = (.ok none, session) := by
  cases offer with
  | memory data name codeBase => simp only [submit, Session.load, bind_run, get_run, disabled]; rfl
  | file data path codeBase =>
    simp only [submit, Session.loadFile, bind_run, get_run, disabled]
    rfl

end Precompiled.Session
