import Precompiled.Proofs.Heap.Claims
import Precompiled.Proofs.Session.Offer

/-! What the gate of a session guarantees about everything that is registered.
The gate is passed once, when a library enters, so the guarantees are an
invariant: an offer adds at most one library, which has just been compared with
the engine and with the agreed shifts, and shifts only ever become fixed. -/
namespace Precompiled

open Blob Outcome

variable {library : Library} {engine : EngineSettings} {shifts : AgreedShifts}
  {settings : BuildSettings} {name : String}

/-! ## The settings -/

/-- The code of a library was built for an engine like this one. -/
structure Library.Suits (library : Library) (engine : EngineSettings) : Prop where
  engineVersion : library.engineVersion = engine.engineVersion
  recordSize : library.settings.recordSize.toInt = 48
  segmentPower : Draft.SegmentPower library.settings
  debugVm : library.settings.debugVm = engine.debugVm
  useCompressedOops : library.settings.useCompressedOops = engine.useCompressedOops
  useCompressedClassPointers :
    library.settings.useCompressedClassPointers = engine.useCompressedClassPointers
  useG1Gc : library.settings.useG1Gc = engine.useG1Gc
  useCmsGc : library.settings.useCmsGc = engine.useCmsGc
  useTlab : library.settings.useTlab = engine.useTlab
  useBiasedLocking : library.settings.useBiasedLocking = engine.useBiasedLocking
  objectAlignment : library.settings.objectAlignment = engine.objectAlignment
  contendedPaddingWidth : library.settings.contendedPaddingWidth = engine.contendedPaddingWidth
  fieldsAllocationStyle : library.settings.fieldsAllocationStyle = engine.fieldsAllocationStyle
  compactFields : library.settings.compactFields = engine.compactFields
  enableContended : library.settings.enableContended = engine.enableContended
  restrictContended : library.settings.restrictContended = engine.restrictContended
  codeSegmentSize : library.settings.codeSegmentSize = engine.codeSegmentSize
  tiered : library.settings.tieredAot = true → engine.tieredCompilation = true

/-- Settings that are let through have been compared one by one. -/
theorem checkSettings_ok {done : Unit} (passed : checkSettings name settings engine = .ok done) :
    settings.recordSize.toInt = 48 ∧ settings.hasSegmentSize = true ∧
      (∀ pair ∈ comparedSettings settings engine, pair.blob = pair.engine) ∧
      (settings.tieredAot = true → engine.tieredCompilation = true) := by
  unfold checkSettings at passed
  obtain ⟨size, passed⟩ := guard_ok.mp passed
  dsimp only at passed
  cases difference : (comparedSettings settings engine).find? fun pair =>
      decide (pair.blob ≠ pair.engine) with
  | some pair =>
    rw [difference] at passed
    cases passed
  | none =>
    rw [difference] at passed
    obtain ⟨sized, passed⟩ := guard_ok.mp passed
    refine ⟨Decidable.not_not.mp size, by simpa using sized, ?_, ?_⟩
    · intro pair among
      simpa using List.find?_eq_none.mp difference pair among
    · intro tiered
      by_contra plain
      rw [if_pos (by simp [tiered, plain])] at passed
      cases passed

/-- A library that passes the gate suits the engine. -/
theorem Library.suits_of_check (passed : (library.check engine shifts).1 = .ok ()) :
    library.Suits engine := by
  unfold Library.check at passed
  by_cases version : library.engineVersion = engine.engineVersion
  · rw [if_neg (not_not.mpr version)] at passed
    cases checked : checkSettings library.name library.settings engine with
    | error error => simp [checked] at passed
    | ok done =>
      obtain ⟨size, sized, same, tiered⟩ := checkSettings_ok checked
      simp only [comparedSettings, List.forall_mem_cons, SettingValue.flag.injEq,
        SettingValue.number.injEq] at same
      obtain ⟨debugVm, oops, classPointers, g1, cms, tlab, biased, alignment, padding, fields,
        compact, contended, restrict, segment, -⟩ := same
      exact
        { engineVersion := version, recordSize := size
          segmentPower := Draft.power_of_hasSegmentSize sized
          debugVm, useCompressedOops := oops, useCompressedClassPointers := classPointers
          useG1Gc := g1, useCmsGc := cms, useTlab := tlab, useBiasedLocking := biased
          objectAlignment := alignment, contendedPaddingWidth := padding
          fieldsAllocationStyle := fields, compactFields := compact, enableContended := contended
          restrictContended := restrict, codeSegmentSize := segment, tiered }
  · simp [version] at passed

/-! ## The shifts -/

namespace AgreedShifts

/-- What was agreed on before still is. -/
structure Keeps (before after : AgreedShifts) : Prop where
  narrowOop : ∀ shift, before.narrowOop = some shift → after.narrowOop = some shift
  narrowKlass : ∀ shift, before.narrowKlass = some shift → after.narrowKlass = some shift

theorem Keeps.refl (shifts : AgreedShifts) : shifts.Keeps shifts :=
  ⟨fun _ fixed => fixed, fun _ fixed => fixed⟩

theorem Keeps.trans {first second third : AgreedShifts} (onward : first.Keeps second)
    (further : second.Keeps third) : first.Keeps third where
  narrowOop shift fixed := further.narrowOop shift (onward.narrowOop shift fixed)
  narrowKlass shift fixed := further.narrowKlass shift (onward.narrowKlass shift fixed)

/-- The code of a blob was built with the shifts that were agreed on. -/
structure Covers (shifts : AgreedShifts) (settings : BuildSettings) : Prop where
  narrowOop : settings.useCompressedOops = true →
    shifts.narrowOop = some settings.narrowOopShift
  narrowKlass : settings.useCompressedOops = true → settings.useCompressedClassPointers = true →
    shifts.narrowKlass = some settings.narrowKlassShift

theorem Covers.keeps {later : AgreedShifts} (covers : shifts.Covers settings)
    (kept : shifts.Keeps later) : later.Covers settings where
  narrowOop oops := kept.narrowOop _ (covers.narrowOop oops)
  narrowKlass oops pointers := kept.narrowKlass _ (covers.narrowKlass oops pointers)

theorem settle_ok {field : String} {agreed : Option Int32} {shift : Int32} {done : Unit}
    (settled : settle name field agreed shift = .ok done) : agreed.getD shift = shift := by
  unfold settle at settled
  by_contra other
  rw [if_neg other] at settled
  cases settled

/-- Checking the shifts of a blob fixes some of them, and moves none. -/
theorem agree_keeps (shifts : AgreedShifts) : shifts.Keeps (shifts.agree name settings).2 := by
  unfold agree
  by_cases oops : settings.useCompressedOops = true
  · rw [if_neg (by simp [oops])]
    cases settle name "narrow_oop_shift" shifts.narrowOop settings.narrowOopShift with
    | error error => exact ⟨fun shift fixed => by simp [fixed], fun shift fixed => fixed⟩
    | ok done =>
      by_cases pointers : settings.useCompressedClassPointers = true
      · simp only [pointers]
        exact ⟨fun shift fixed => by simp [fixed], fun shift fixed => by simp [fixed]⟩
      · simp only [pointers]
        exact ⟨fun shift fixed => by simp [fixed], fun shift fixed => fixed⟩
  · rw [if_pos (by simp [oops])]
    exact Keeps.refl shifts

/-- A blob that is let through was built with the shifts that are agreed on. -/
theorem agree_covers (passed : (shifts.agree name settings).1 = .ok ()) :
    (shifts.agree name settings).2.Covers settings := by
  unfold agree at passed ⊢
  by_cases oops : settings.useCompressedOops = true
  · rw [if_neg (by simp [oops])] at passed ⊢
    cases oop : settle name "narrow_oop_shift" shifts.narrowOop settings.narrowOopShift with
    | error error => simp [oop] at passed
    | ok done =>
      have oopShift := settle_ok oop
      by_cases pointers : settings.useCompressedClassPointers = true
      · simp only [oop, pointers] at passed ⊢
        have klassShift := settle_ok passed
        exact ⟨fun _ => congrArg some oopShift, fun _ _ => congrArg some klassShift⟩
      · simp only [pointers]
        exact ⟨fun _ => congrArg some oopShift, fun _ used => absurd used pointers⟩
  · rw [if_pos (by simp [oops])]
    exact ⟨fun used => absurd used oops, fun used => absurd used oops⟩

end AgreedShifts

theorem Library.check_keeps (library : Library) (engine : EngineSettings) (shifts : AgreedShifts) :
    shifts.Keeps (library.check engine shifts).2 := by
  unfold Library.check
  split
  · exact .refl shifts
  · split
    · exact .refl shifts
    · exact shifts.agree_keeps

theorem Library.covers_of_check (passed : (library.check engine shifts).1 = .ok ()) :
    (library.check engine shifts).2.Covers library.settings := by
  unfold Library.check at passed ⊢
  by_cases version : library.engineVersion = engine.engineVersion
  · rw [if_neg (not_not.mpr version)] at passed ⊢
    cases checked : checkSettings library.name library.settings engine with
    | error error => simp [checked] at passed
    | ok done =>
      simp only [checked] at passed
      exact AgreedShifts.agree_covers passed
  · simp [version] at passed

/-! ## The session -/

namespace Session

variable {session : Session} {offer : Offer} {heap : Heap}

/-- The registered libraries in load order. -/
def libraries (session : Session) : List Library :=
  session.heaps.map fun heap => heap.image.library

/-- What the gate of a session guarantees. -/
structure Guarded (engine : EngineSettings) (session : Session) : Prop where
  suits : ∀ library ∈ session.libraries, library.Suits engine
  named : session.libraries.Pairwise fun first second => first.name ≠ second.name
  numbered : session.libraries.Pairwise fun first second => first.id < second.id
  covers : ∀ library ∈ session.libraries, session.shifts.Covers library.settings

/-- The guarantees, with what their induction needs besides. -/
structure Gated (engine : EngineSettings) (session : Session) : Prop extends
    Guarded engine session where
  engine : session.engine = engine
  recent : ∀ library ∈ session.libraries, library.id < session.nextId

/-- A heap is built for the library it is asked for. -/
theorem build_library (built : build library = .ok heap) : heap.image.library = library := by
  rw [build, Heap.create_outcome] at built
  obtain ⟨⟨image, stubs⟩, prepared, settled⟩ := bind_ok.mp built
  obtain ⟨state, -, rfl⟩ := map_ok.mp settled
  exact (Heap.prepare_claims prepared).1

/-- What is put before the gate bears a free name and the next number. -/
theorem candidate_ok (found : offer.candidate session = .ok library) :
    session.isLoaded library.name = false ∧ library.id = session.nextId := by
  cases offer with
  | memory data name codeBase =>
    simp only [Offer.candidate] at found
    split at found
    · cases found
    · have accepted := Library.accept_ok.mp found
      exact ⟨accepted.named ▸ Bool.eq_false_iff.mpr ‹_›, accepted.numbered⟩
  | file data path codeBase =>
    cases data with
    | none => cases found
    | some data =>
      simp only [Offer.candidate] at found
      split at found
      · cases found
      · rename_i accepted
        split at found
        · cases found
        · cases found
          exact ⟨Bool.eq_false_iff.mpr ‹_›, (Library.accept_ok.mp accepted).numbered⟩

/-- What has to be true of an offer that leads to a heap. -/
theorem verdict_ok (given : (session.verdict offer).1 = .ok heap) :
    session.isLoaded heap.image.library.name = false ∧ heap.image.library.id = session.nextId ∧
      session.verdict offer = (.ok heap, (heap.image.library.check session.engine session.shifts).2) ∧
      (heap.image.library.check session.engine session.shifts).1 = .ok () := by
  unfold Session.verdict judge at *
  rcases candidate : offer.candidate session with error | library
  · simp [candidate] at given
  · obtain ⟨free, number⟩ := candidate_ok candidate
    rw [candidate] at given
    rcases checked : library.check session.engine session.shifts with ⟨error | done, shifts⟩
    · simp [checked] at given
    · simp only [checked] at given
      obtain rfl := build_library given
      exact ⟨free, number, by simp [checked, given], by rw [checked]⟩

/-- An offer fixes shifts, and moves none. -/
theorem verdict_keeps (session : Session) (offer : Offer) :
    session.shifts.Keeps (session.verdict offer).2 := by
  unfold Session.verdict judge
  split
  · exact .refl _
  · rename_i library candidate
    have kept := library.check_keeps session.engine session.shifts
    split <;> simpa [*] using kept

theorem isLoaded_eq_false : session.isLoaded name = false ↔
    ∀ library ∈ session.libraries, library.name ≠ name := by
  simp [isLoaded, libraries]

/-- A library that suits, under a free name and the next number, may be added. -/
theorem Gated.enter {later : Session} (gated : Gated engine session)
    (grown : later.libraries = session.libraries ++ [library])
    (same : later.engine = session.engine)
    (kept : session.shifts.Keeps later.shifts) (counted : session.nextId < later.nextId)
    (free : session.isLoaded library.name = false) (number : library.id = session.nextId)
    (suits : library.Suits engine) (covers : later.shifts.Covers library.settings) :
    Gated engine later where
  engine := same.trans gated.engine
  suits := by
    rw [grown, List.forall_mem_append]
    exact ⟨gated.suits, by simpa using suits⟩
  named := by
    rw [grown, List.pairwise_append]
    refine ⟨gated.named, List.pairwise_singleton _ _, fun earlier among new fresh => ?_⟩
    obtain rfl := List.mem_singleton.mp fresh
    exact isLoaded_eq_false.mp free earlier among
  numbered := by
    rw [grown, List.pairwise_append]
    refine ⟨gated.numbered, List.pairwise_singleton _ _, fun earlier among new fresh => ?_⟩
    obtain rfl := List.mem_singleton.mp fresh
    exact number ▸ gated.recent earlier among
  recent := by
    rw [grown, List.forall_mem_append]
    exact ⟨fun earlier among => (gated.recent earlier among).trans counted, by simpa [number]⟩
  covers := by
    rw [grown, List.forall_mem_append]
    exact ⟨fun earlier among => (gated.covers earlier among).keeps kept, by simpa using covers⟩

/-- The guarantees stand where no library is added. -/
theorem Gated.stay {later : Session} (gated : Gated engine session)
    (stayed : later.libraries = session.libraries) (same : later.engine = session.engine)
    (kept : session.shifts.Keeps later.shifts) (counted : session.nextId ≤ later.nextId) :
    Gated engine later where
  engine := same.trans gated.engine
  suits := stayed ▸ gated.suits
  named := stayed ▸ gated.named
  numbered := stayed ▸ gated.numbered
  recent := by
    rw [stayed]
    exact fun earlier among => (gated.recent earlier among).trans_le counted
  covers := by
    rw [stayed]
    exact fun earlier among => (gated.covers earlier among).keeps kept

/-- The guarantees stand whatever an offer comes to. -/
theorem Gated.settled (gated : Gated engine session) {result : Reply × Session}
    (settled : Settles session (session.verdict offer) result) :
    Gated engine result.2 ∧ session.shifts.Keeps result.2.shifts := by
  obtain ⟨nextId, journal, later, used, rfl⟩ := settled
  have kept := verdict_keeps session offer
  refine ⟨?_, kept⟩
  rcases given : (session.verdict offer).1 with error | heap
  · have stayed : libraries { session with
        heaps := session.heaps ++ (Except.error error : Except Error Heap).toOption.toList } =
        session.libraries := by simp [libraries, Except.toOption]
    exact gated.stay stayed rfl kept later
  · obtain ⟨free, number, same, passed⟩ := verdict_ok given
    have grown : libraries { session with
        heaps := session.heaps ++ (Except.ok heap : Except Error Heap).toOption.toList } =
        session.libraries ++ [heap.image.library] := by simp [libraries, Except.toOption]
    have covers := Library.covers_of_check passed
    rw [show (heap.image.library.check session.engine session.shifts).2 = (session.verdict offer).2
      by rw [same]] at covers
    exact gated.enter grown rfl kept (used (by rw [given]; rfl)) free number
      (gated.engine ▸ Library.suits_of_check passed) covers

/-- Work of a heap leaves its library alone. -/
theorem libraries_work (session : Session) (position : Nat) (cell : Heap.Cell) :
    ((Event.work position cell).run session).libraries = session.libraries := by
  apply List.ext_getElem?
  intro index
  simp only [libraries, Event.run, Session.cell, List.getElem?_map, List.getElem?_modify]
  by_cases same : position = index <;> cases session.heaps[index]? <;> simp [same]

theorem Gated.event (gated : Gated engine session) (event : Event) :
    Gated engine (event.run session) ∧ session.shifts.Keeps (event.run session).shifts := by
  cases event with
  | work position cell =>
    have same := libraries_work session position cell
    exact ⟨gated.stay same rfl (.refl _) (Nat.le_refl _), .refl _⟩
  | offer offer =>
    cases enabled : session.options.enabled with
    | true => exact gated.settled (submit_settles enabled offer)
    | false =>
      have idle : (Event.offer offer).run session = session := by
        rw [Event.run, submit_disabled enabled]
      rw [idle]
      exact ⟨gated, .refl _⟩

theorem Gated.after (gated : Gated engine session) (events : List Event) :
    Gated engine (session.after events) ∧ session.shifts.Keeps (session.after events).shifts := by
  induction events generalizing session with
  | nil => exact ⟨gated, .refl _⟩
  | cons event rest ih =>
    obtain ⟨onward, kept⟩ := gated.event event
    obtain ⟨further, held⟩ := ih onward
    exact ⟨further, kept.trans held⟩

/-- Libraries that use the same kind of compressed pointer shift it alike. -/
def SharesShifts (session : Session) : Prop :=
  ∀ first ∈ session.libraries, ∀ second ∈ session.libraries,
    first.settings.useCompressedOops = true → second.settings.useCompressedOops = true →
      first.settings.narrowOopShift = second.settings.narrowOopShift ∧
      (first.settings.useCompressedClassPointers = true →
        second.settings.useCompressedClassPointers = true →
          first.settings.narrowKlassShift = second.settings.narrowKlassShift)

theorem Guarded.sharesShifts (guarded : Guarded engine session) : session.SharesShifts := by
  intro first among second present oops oops'
  have covers := guarded.covers first among
  have covers' := guarded.covers second present
  constructor
  · exact Option.some.inj ((covers.narrowOop oops).symm.trans (covers'.narrowOop oops'))
  · intro pointers pointers'
    exact Option.some.inj
      ((covers.narrowKlass oops pointers).symm.trans (covers'.narrowKlass oops' pointers'))

theorem gated_fresh (options : SessionOptions) (engine : EngineSettings) :
    Gated engine { options, engine } where
  engine := rfl
  suits := by simp [libraries]
  named := by simp [libraries]
  numbered := by simp [libraries]
  recent := by simp [libraries]
  covers := by simp [libraries]

/-- The guarantees of the gate hold at every time, whatever is offered to a
session and whatever its heaps do in between, and shifts that were agreed on
stay as they are. -/
theorem gate_guards (options : SessionOptions) (engine : EngineSettings)
    (earlier later : List Event) :
    let session := after { options, engine } earlier
    Guarded engine session ∧ session.SharesShifts ∧
      session.shifts.Keeps (session.after later).shifts := by
  obtain ⟨gated, -⟩ := (gated_fresh options engine).after earlier
  obtain ⟨-, kept⟩ := gated.after later
  exact ⟨gated.toGuarded, gated.toGuarded.sharesShifts, kept⟩

end Session

end Precompiled
