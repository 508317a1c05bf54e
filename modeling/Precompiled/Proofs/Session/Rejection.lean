import Precompiled.Blob.Assembly
import Precompiled.Proofs.Session.Gate

/-! What a refused offer leaves behind. The heaps stay as they are, and so do
the shifts, except where a library passed the whole gate and only its heap could
not be built: the shifts it fixed on the way stay fixed. Where none were fixed,
every later offer is answered as if the refused one had never been made, since
numbers and reports play no part in an answer. -/
namespace Precompiled

open Blob Outcome

variable {library : Library} {id other : Nat} {settings : BuildSettings} {shifts : AgreedShifts}
  {name : String}

/-! ## Numbers play no part -/

/-- The same library under another number. -/
def Library.renumber (id : Nat) (library : Library) : Library :=
  { library with id }

/-- The loader puts the number of a library into it and does nothing else with
it. -/
theorem Library.accept_renumber (data : Bytes) (name : String) (options : LoadOptions) :
    accept data name id options = (accept data name other options).map (renumber id) := by
  unfold accept
  simp only [map_bind, map_branch]
  rfl

namespace Heap

variable {image : Image}

/-- The fixed half of the heap of a renumbered library. -/
def Image.renumber (id : Nat) (image : Image) : Image :=
  { image with library := image.library.renumber id }

theorem classClaims_renumber (count first : Nat) :
    classClaims (library.renumber id) count first = classClaims library count first := by
  induction count generalizing first with
  | zero => rfl
  | succ count ih =>
    rw [classClaims, classClaims]
    simp only [ih]
    rfl

theorem prepare_renumber : prepare (library.renumber id) =
    (prepare library).map fun (image, stubs) => (image.renumber id, stubs) := by
  unfold prepare
  simp only [classClaims_renumber, map_bind, map_branch]
  rfl

theorem place_renumber (record : CodeRecord) (detail : CodeDetail) (name : MethodName)
    (method : Option MethodRef) (holder : Option ClassRef) (classId : Option Nat) :
    (image.renumber id).place record detail name method holder classId =
      (image.place record detail name method holder classId).map
        fun code => { code with libraryId := id } := by
  unfold Image.place
  cases natural? record.codeOffset with
  | none => rfl
  | some offset =>
    cases natural? record.metadataStart with
    | none => simp only [map_bind, map_branch]; rfl
    | some start =>
      cases natural? record.metadataCount with
      | none => simp only [map_bind, map_branch]; rfl
      | some count => simp only [map_bind, map_branch]; rfl

theorem stubCode_renumber (record : CodeRecord) :
    stubCode (image.renumber id) record =
      (stubCode image record).map fun code => { code with libraryId := id } := by
  unfold stubCode
  simp only [place_renumber, map_bind]
  rfl

/-- Whether the stubs can be placed does not depend on the number of the library,
nor on what has been placed before. -/
theorem settleAll_renumber (records : List CodeRecord) (state after : State) :
    (settleAll (image.renumber id) after records).map (fun _ => ()) =
      (settleAll image state records).map (fun _ => ()) := by
  induction records generalizing state after with
  | nil => rfl
  | cons record rest ih =>
    unfold settleAll at ih ⊢
    simp only [List.foldlM_cons]
    rw [stubCode_renumber]
    cases stubCode image record with
    | error error => rfl
    | ok stub => exact ih _ _

end Heap

namespace AgreedShifts

/-- A blob with these settings would fix a shift that is still open. -/
def Opens (shifts : AgreedShifts) (settings : BuildSettings) : Prop :=
  settings.useCompressedOops = true ∧
    (shifts.narrowOop = none ∨
      settings.useCompressedClassPointers = true ∧ shifts.narrowKlass = none)

/-- The shift of class pointers is not fixed before that of objects. -/
def Ordered (shifts : AgreedShifts) : Prop :=
  shifts.narrowOop = none → shifts.narrowKlass = none

theorem agree_ordered (ordered : shifts.Ordered) : (shifts.agree name settings).2.Ordered := by
  unfold agree
  by_cases oops : settings.useCompressedOops = true
  · rw [if_neg (by simp [oops])]
    split
    · exact nofun
    · split <;> exact nofun
  · rw [if_pos (by simp [oops])]
    exact ordered

/-- Shifts that were fixed in order change exactly where a blob is let through
that fixes one of them. -/
theorem agree_changes (ordered : shifts.Ordered) :
    (shifts.agree name settings).2 ≠ shifts ↔
      (shifts.agree name settings).1 = .ok () ∧ shifts.Opens settings := by
  obtain ⟨oop, klass⟩ := shifts
  unfold agree Opens settle
  by_cases oops : settings.useCompressedOops = true
  · by_cases pointers : settings.useCompressedClassPointers = true
    · cases oop with
      | none =>
        obtain rfl : klass = none := ordered rfl
        simp [oops, pointers]
      | some oop =>
        cases klass <;> by_cases same : oop = settings.narrowOopShift <;>
          simp [oops, pointers, same]
    · cases oop with
      | none => simp [oops, pointers]
      | some oop => by_cases same : oop = settings.narrowOopShift <;> simp [oops, pointers, same]
  · simp [oops]

end AgreedShifts

/-- The gate changes shifts that were fixed in order exactly where it lets a
library through that fixes one of them. -/
theorem Library.check_changes {engine : EngineSettings} (ordered : shifts.Ordered) :
    (library.check engine shifts).2.Ordered ∧
      ((library.check engine shifts).2 ≠ shifts ↔
        (library.check engine shifts).1 = .ok () ∧ shifts.Opens library.settings) := by
  unfold Library.check
  split
  · simp [ordered]
  · split
    · simp [ordered]
    · exact ⟨AgreedShifts.agree_ordered ordered, AgreedShifts.agree_changes ordered⟩

namespace Session

variable {session first second : Session} {offer : Offer} {engine : EngineSettings}

/-! ## Sessions that answer alike -/

/-- Two sessions that differ in their numbers, their reports and the doings of
their heaps only. -/
structure Alike (first second : Session) : Prop where
  options : second.options = first.options
  engine : second.engine = first.engine
  shifts : second.shifts = first.shifts
  names : second.libraries.map Library.name = first.libraries.map Library.name

theorem Alike.isLoaded (alike : Alike first second) (name : String) :
    second.isLoaded name = first.isLoaded name := by
  have listed (session : Session) :
      session.isLoaded name = (session.libraries.map Library.name).any (· == name) := by
    simp [Session.isLoaded, libraries, Function.comp_def]
  rw [listed, listed, alike.names]

theorem Alike.length (alike : Alike first second) : second.heaps.length = first.heaps.length := by
  simpa [libraries] using congrArg List.length alike.names

theorem Alike.candidate (alike : Alike first second) (offer : Offer) :
    offer.candidate second = (offer.candidate first).map (Library.renumber second.nextId) := by
  cases offer with
  | memory data name codeBase =>
    simp only [Offer.candidate, alike.isLoaded, alike.options]
    split
    · rfl
    · exact Library.accept_renumber data name _
  | file data path codeBase =>
    cases data with
    | none => rfl
    | some data =>
      have renumbered (options : LoadOptions) :
          Library.accept data (Text.fileName path) second.nextId options =
            (Library.accept data (Text.fileName path) first.nextId options).map
              (Library.renumber second.nextId) := Library.accept_renumber _ _ _
      simp only [Offer.candidate, alike.options]
      rw [renumbered]
      cases Library.accept data (Text.fileName path) first.nextId _ with
      | error error => rfl
      | ok library =>
        simp only [Except.map, alike.isLoaded]
        change (if first.isLoaded library.name = true then _ else _) = _
        split <;> rfl

/-- Whether a heap can be built does not depend on the number of the library. -/
theorem build_renumber (id : Nat) (library : Library) :
    (build (library.renumber id)).map (fun _ => ()) = (build library).map fun _ => () := by
  rw [build, build, Heap.create_outcome, Heap.create_outcome, Heap.prepare_renumber]
  cases Heap.prepare library with
  | error error => rfl
  | ok prepared =>
    obtain ⟨image, stubs⟩ := prepared
    have settled :
        (Heap.settleAll (image.renumber id) (image.renumber id).initialState stubs).map
            (fun _ => ()) =
          (Heap.settleAll image image.initialState stubs).map (fun _ => ()) :=
      Heap.settleAll_renumber _ _ _
    simp only [Except.map, Except.bind]
    revert settled
    cases Heap.settleAll image image.initialState stubs <;>
      cases Heap.settleAll (image.renumber id) (image.renumber id).initialState stubs <;>
      simp [Except.map]

/-- The outcome of building a heap, down to the name it is registered under. -/
theorem build_name (library : Library) :
    (build library).map (fun heap => heap.image.library.name) =
      ((build library).map fun _ => ()).map fun _ => library.name := by
  cases built : build library with
  | error error => rfl
  | ok heap => rw [← build_library built]; rfl

theorem Alike.verdict (alike : Alike first second) (offer : Offer) :
    (second.verdict offer).2 = (first.verdict offer).2 ∧
      (second.verdict offer).1.map (fun heap => heap.image.library.name) =
        (first.verdict offer).1.map fun heap => heap.image.library.name := by
  unfold Session.verdict
  rw [alike.candidate offer]
  cases offer.candidate first with
  | error error => exact ⟨alike.shifts, rfl⟩
  | ok library =>
    have checked : (library.renumber second.nextId).check second.engine second.shifts =
        library.check first.engine first.shifts := by rw [alike.engine, alike.shifts]; rfl
    simp only [Except.map, judge, checked]
    rcases library.check first.engine first.shifts with ⟨error | done, shifts⟩
    · exact ⟨rfl, rfl⟩
    · refine ⟨rfl, ?_⟩
      have same := build_name (library.renumber second.nextId)
      rw [build_renumber] at same
      exact same.trans (build_name library).symm

/-- Sessions that are alike answer an offer alike, and stay alike. -/
theorem Alike.submit (alike : Alike first second) (offer : Offer) :
    ((submit offer).run second).1 = ((submit offer).run first).1 ∧
      Alike ((submit offer).run first).2 ((submit offer).run second).2 := by
  cases enabled : first.options.enabled with
  | false =>
    rw [submit_disabled enabled, submit_disabled (alike.options ▸ enabled)]
    exact ⟨rfl, alike⟩
  | true =>
    obtain ⟨agreed, outcome⟩ := alike.verdict offer
    obtain ⟨_, _, -, -, here⟩ := submit_settles enabled offer
    obtain ⟨_, _, -, -, there⟩ := submit_settles (alike.options ▸ enabled) offer
    rw [here, there]
    have names := alike.names
    revert outcome
    rcases (first.verdict offer).1 with error | heap <;>
      rcases (second.verdict offer).1 with other | heap' <;> intro outcome <;>
      simp only [Except.map, Except.ok.injEq, Except.error.injEq, reduceCtorEq] at outcome
    · subst outcome
      refine ⟨by simp [reply, alike.options], ⟨alike.options, alike.engine, agreed, ?_⟩⟩
      simpa [libraries, Except.toOption] using names
    · refine ⟨by simp [reply, alike.length], ⟨alike.options, alike.engine, agreed, ?_⟩⟩
      simpa [libraries, Except.toOption, outcome] using names

theorem Alike.submitAll (alike : Alike first second) (offers : List Offer) :
    ((submitAll offers).run second).1 = ((submitAll offers).run first).1 ∧
      Alike ((submitAll offers).run first).2 ((submitAll offers).run second).2 := by
  induction offers generalizing first second with
  | nil => exact ⟨rfl, alike⟩
  | cons offer rest ih =>
    obtain ⟨same, onward⟩ := alike.submit offer
    obtain ⟨others, still⟩ := ih onward
    simp only [Session.submitAll, bind_run]
    refine ⟨?_, still⟩
    change _ :: _ = _ :: _
    rw [same, others]

/-! ## Refusals -/

/-- The offer is a library that fixes a shift on its way through the gate, only
for its heap to turn out impossible to build. -/
def Wasted (session : Session) (offer : Offer) : Prop :=
  session.options.enabled = true ∧ ∃ library, offer.candidate session = .ok library ∧
    (library.check session.engine session.shifts).1 = .ok () ∧
    session.shifts.Opens library.settings ∧ ∃ error, build library = .error error

theorem judge_shifts (session : Session) (library : Library) :
    (session.judge library).2 = (library.check session.engine session.shifts).2 := by
  unfold judge
  rcases library.check session.engine session.shifts with ⟨_ | _, shifts⟩ <;> rfl

theorem verdict_ordered (ordered : session.shifts.Ordered) (offer : Offer) :
    (session.verdict offer).2.Ordered := by
  unfold Session.verdict
  cases offer.candidate session with
  | error error => exact ordered
  | ok library => exact session.judge_shifts library ▸ (Library.check_changes ordered).1

theorem event_ordered (ordered : session.shifts.Ordered) (event : Event) :
    (event.run session).shifts.Ordered := by
  cases event with
  | work position cell => exact ordered
  | offer offer =>
    rw [Event.run]
    cases enabled : session.options.enabled with
    | false => exact submit_disabled enabled offer ▸ ordered
    | true =>
      obtain ⟨_, _, -, -, result⟩ := submit_settles enabled offer
      rw [result]
      exact verdict_ordered ordered offer

/-- Along every course the shift of objects is fixed first. -/
theorem after_ordered (ordered : session.shifts.Ordered) (events : List Event) :
    (session.after events).shifts.Ordered := by
  induction events generalizing session with
  | nil => exact ordered
  | cons event rest ih => exact ih (event_ordered ordered event)

/-- An offer under a verdict of refusal changes the shifts exactly if it was
wasted. -/
theorem verdict_changes (ordered : session.shifts.Ordered)
    (enabled : session.options.enabled = true)
    {reason : Error} (refused : (session.verdict offer).1 = .error reason) :
    (session.verdict offer).2 ≠ session.shifts ↔ Wasted session offer := by
  unfold Wasted
  unfold Session.verdict at *
  cases candidate : offer.candidate session with
  | error error => simp
  | ok library =>
    rw [candidate] at refused
    have changes : (library.check session.engine session.shifts).2 ≠ session.shifts ↔ _ :=
      (Library.check_changes ordered).2
    have unbuilt (passed : (library.check session.engine session.shifts).1 = .ok ()) :
        build library = .error reason := by
      rcases checked : library.check session.engine session.shifts with ⟨error | done, shifts⟩
      · simp [checked] at passed
      · simpa [judge, checked] using refused
    simp only [judge_shifts, changes, enabled, true_and, Except.ok.injEq, exists_eq_left']
    constructor
    · rintro ⟨passed, opens⟩
      exact ⟨passed, opens, reason, unbuilt passed⟩
    · rintro ⟨passed, opens, -⟩
      exact ⟨passed, opens⟩

/-- What is left when an offer has not led to a heap. -/
structure Forgets (session : Session) (offer : Offer) (later : Session) : Prop where
  heaps : later.heaps = session.heaps
  shifts : later.shifts ≠ session.shifts ↔ Wasted session offer
  onward : later.shifts = session.shifts → ∀ offers,
    ((submitAll offers).run later).1 = ((submitAll offers).run session).1

theorem forgets_of_refused (ordered : session.shifts.Ordered)
    (refused : ∀ position, ((submit offer).run session).1 ≠ .ok (some position)) :
    Forgets session offer ((submit offer).run session).2 := by
  cases enabled : session.options.enabled with
  | false =>
    rw [submit_disabled enabled]
    exact ⟨rfl, by simp [Wasted, enabled], fun _ _ => rfl⟩
  | true =>
    obtain ⟨nextId, journal, -, -, result⟩ := submit_settles enabled offer
    rw [result] at refused ⊢
    rcases given : (session.verdict offer).1 with reason | heap
    · have alike (same : (session.verdict offer).2 = session.shifts) : Alike session { session with
          heaps := session.heaps ++ (Except.error reason : Except Error Heap).toOption.toList
          shifts := (session.verdict offer).2, nextId, journal } :=
        ⟨rfl, rfl, same, by simp [libraries, Except.toOption]⟩
      exact
        { heaps := by simp [Except.toOption]
          shifts := verdict_changes ordered enabled given
          onward := fun same offers => ((alike same).submitAll offers).1 }
    · exact absurd (by rw [given]; rfl) (refused session.heaps.length)

/-- A refused offer leaves the heaps as they are. It leaves the shifts as they
are as well unless it was wasted, and then all further offers are answered as if
it had never been made. -/
theorem refusal_forgets (options : SessionOptions) (engine : EngineSettings) (events : List Event)
    (offer : Offer)
    (refused : ∀ position,
      ((submit offer).run (after { options, engine } events)).1 ≠ .ok (some position)) :
    Forgets (after { options, engine } events) offer
      ((submit offer).run (after { options, engine } events)).2 :=
  forgets_of_refused (after_ordered (fun _ => rfl) events) refused

/-! ## A wasted offer -/

/-- A session that takes checksums on trust. -/
def trusting : Session := { options := { verifyChecksum := false }, engine := {} }

/-- A blob that does not shift its pointers to objects, with a stub that has
nothing to enter. -/
def hollow : Offer :=
  .memory ((Draft.addStub { settings := { narrowOopShift := 0 }, engineVersion := "0.2.0" }
    "stub" 0).1.assemble) "hollow" 0

/-- A blob with nothing in it, of the usual settings. -/
def plain : Offer :=
  .memory (Draft.assemble { settings := {}, engineVersion := "0.2.0" }) "plain" 0

set_option maxRecDepth 1000000 in
theorem hollow_refused : ((submit hollow).run trusting).1 = .ok none := by
  decide +kernel

theorem refusal_forgets_hollow :
    (∀ position, ((submit hollow).run (after trusting [])).1 ≠ .ok (some position)) ∧
      Forgets trusting hollow ((submit hollow).run trusting).2 := by
  have refused : ∀ position, ((submit hollow).run (after trusting [])).1 ≠ .ok (some position) := by
    intro position
    rw [show after trusting [] = trusting from rfl, hollow_refused]
    exact nofun
  exact ⟨refused, refusal_forgets trusting.options trusting.engine [] hollow refused⟩

set_option maxRecDepth 1000000 in
/-- The hollow blob is refused, yet its shift is agreed on: the plain blob is
accepted by the session as it was, and refused by the session as it is. -/
theorem refusal_fixes_shift :
    ((submit hollow).run trusting).1 = .ok none ∧
      ((submit hollow).run trusting).2.shifts ≠ trusting.shifts ∧
      ((submit plain).run trusting).1 = .ok (some 0) ∧
      ((submit plain).run ((submit hollow).run trusting).2).1 = .ok none := by
  refine ⟨hollow_refused, ?_, ?_, ?_⟩
  · decide +kernel
  · decide +kernel
  · decide +kernel

end Session

end Precompiled
