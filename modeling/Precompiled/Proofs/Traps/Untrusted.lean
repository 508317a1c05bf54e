import Precompiled.Proofs.Heap.Built
import Precompiled.Proofs.Traps.Service

/-! Bytes that nobody vouches for. Whatever they are, loading them does not trap. If they are
accepted no view of the library traps, whatever it is asked, and neither does creating a
heap; and if there is a heap then nothing that is done with it traps, in whatever order
calls are begun and questions are answered. In each case the value is that of the
definitions without partial expressions. -/
namespace Precompiled

open Blob Trapping

/-! ## Libraries -/

/-- The views of a library have values. The arguments are any words, and records need not
come from the library. -/
structure Stored.Answers (stored : Stored) : Prop where
  findClassRecord : ∀ name,
    stored.findClassRecord name = .ok (stored.library.findClassRecord name)
  classRecord : ∀ classId < 2 ^ 32,
    stored.classRecord classId = .ok (stored.library.classRecord classId)
  methodsOf : ∀ owner, stored.methodsOf owner = .ok (stored.library.methodsOf owner)
  dependentsOf : ∀ target, stored.dependentsOf target = .ok (stored.library.dependentsOf target)
  detailOf : ∀ record, stored.detailOf record = .ok (stored.library.detailOf record)
  methodName : ∀ record, stored.methodName record = .ok (stored.library.methodName record)
  stubRecords : stored.stubRecords = .ok stored.library.stubRecords
  codeIdAt : ∀ offset, stored.codeIdAt offset = .ok (stored.library.codeIdAt offset)
  poolName : ∀ offset, stored.poolName offset = .ok (stored.library.poolName offset)
  metaspaceName : ∀ index < 2 ^ 32,
    stored.metaspaceName index = .ok (stored.library.metaspaceName index)
  objectName : ∀ index < 2 ^ 32, stored.objectName index = .ok (stored.library.objectName index)
  routines : stored.routines = .ok stored.library.routines
  code : stored.places.code.cut stored.data = .ok stored.library.contents.code
  segments : stored.segments = .ok stored.library.contents.segments
  base : stored.base = .ok stored.library.codeBase

theorem Stored.Sound.answers {stored : Stored} (sound : stored.Sound) : stored.Answers where
  findClassRecord := sound.findClassRecord_ok
  classRecord _ := sound.classRecord_ok
  methodsOf := sound.methodsOf_ok
  dependentsOf := sound.dependentsOf_ok
  detailOf := sound.detailOf_ok
  methodName := sound.methodName_ok
  stubRecords := sound.stubRecords_ok
  codeIdAt := sound.codeIdAt_ok
  poolName := sound.poolName_ok
  metaspaceName _ := sound.metaspaceName_ok
  objectName _ := sound.objectName_ok
  routines := sound.routines_ok
  code := Span.cut_ok sound.code sound.small
  segments := sound.segments_ok
  base := sound.base_ok

namespace Heap

/-! ## Heaps -/

/-- What a heap is asked without being changed has a value, for every address. -/
structure Fixture.Tells (fixture : Fixture) (state : State) : Prop where
  contains : ∀ address,
    fixture.contains state address = .ok (Heap.contains ⟨fixture.image, state⟩ address)
  findOwner : ∀ address,
    fixture.findOwner state address = .ok (Heap.findOwner ⟨fixture.image, state⟩ address)
  findStart : ∀ address,
    fixture.findStart state address = .ok (Heap.findStart ⟨fixture.image, state⟩ address)
  lowBoundary : fixture.lowBoundary state = .ok (Heap.lowBoundary ⟨fixture.image, state⟩)
  highBoundary : fixture.highBoundary state = .ok (Heap.highBoundary ⟨fixture.image, state⟩)
  next : ∀ codeId < 2 ^ 32, Fixture.next state codeId = .ok (state.next codeId)
  boundEntry : ∀ klass,
    fixture.boundEntry klass state = .ok (Heap.boundEntry fixture.image state klass)
  boundLoader : ∀ classId, Heap.boundLoader state classId = .ok (state.loader? classId)
  isDependent : ∀ klass codeId,
    fixture.isDependent state klass codeId = .ok (Heap.isDependent fixture.image state klass codeId)

variable {fixture : Fixture} {start : Cell}

theorem Fixture.Sound.tells (sound : fixture.Sound) {state : State}
    (intact : state.Intact fixture.image) : fixture.Tells state where
  contains := sound.contains_address_ok intact
  findOwner := sound.findOwner_ok intact
  findStart := sound.findStart_ok intact
  lowBoundary := sound.lowBoundary_ok intact
  highBoundary := sound.highBoundary_ok intact
  next _ few := Fixture.Sound.next_ok few state
  boundEntry := sound.boundEntry_ok intact
  boundLoader := boundLoader_ok state
  isDependent := sound.isDependent_ok intact

/-- The courses from a state on in which every task is proper when it is begun. -/
def Fixture.Reaches (fixture : Fixture) (start : Cell) (course : fixture.service.Course) : Prop :=
  Service.Reaches (fun course task => Task.Proper course.state.state task) start course

/-- Nothing trapped so far, and nothing that the heap is asked now would. -/
structure Untrapped (fixture : Fixture) (start : Cell) (course : fixture.service.Course) : Prop where
  replies : ∀ moment ∈ course.past, ∀ task reply, moment.event = .replied task reply →
    ∃ value, reply = .ok value
  tells : fixture.Tells course.state.state
  /-- The heap without partial expressions takes the same course. -/
  alongside : ∃ plain : (service fixture.image).Course,
    Service.Reaches (fun course task => Task.Proper course.state.state task) start plain ∧
      Service.Alongside (Whole fixture.image) course plain

/-- No course of proper tasks traps. -/
theorem untrapped (sound : fixture.Sound) (intact : Whole fixture.image start)
    {course : fixture.service.Course} (reached : fixture.Reaches start course) :
    Untrapped fixture start course := by
  obtain ⟨plain, onward, alongside⟩ : ∃ plain : (service fixture.image).Course,
      Service.Reaches (fun course task => Task.Proper course.state.state task) start plain ∧
        Service.Alongside (Whole fixture.image) course plain := by
    refine Service.Alongside.reaches ?_ ?_ intact reached
    · intro course plain alongside task proper
      rw [alongside.state] at proper
      exact ⟨proper, Fixture.task_mirrors sound alongside.held proper⟩
    · intro before after held drifted
      exact held.of_same (congrArg State.slots drifted)
        (congrArg (fun state => state.loaders.length) drifted) (congrArg State.extent drifted)
  refine ⟨?_, ?_, plain, onward, alongside⟩
  · intro moment among task reply replied
    obtain ⟨value, same, -⟩ := alongside.reply among replied
    exact ⟨value, same⟩
  · rw [alongside.state]
    exact sound.tells alongside.held

end Heap

/-! ## From bytes to courses -/

open Heap

/-- Untrusted bytes never trap, given that they fit into memory and that the code of a
library that is accepted lies inside the address space. Following the links of a segment
map ends for any bytes at all, after no more rounds than there are segments up to the one
where it begins. -/
theorem untrusted_bytes_never_trap (data : Bytes) (name : String) (id : Nat)
    (options : LoadOptions) (small : data.length < 2 ^ 63)
    (placed : ∀ library, Library.accept data name id options = .ok library →
      library.codeBase + library.codeSize < 2 ^ 64) :
    (∀ map segment, followLinks map (segment + 1) segment = .ok (segmentStart map segment)) ∧
    ∃ loaded : Except Error Stored,
      (Stored.accept data name id options).run = .ok loaded ∧
      loaded.map Stored.library = Library.accept data name id options ∧
      ∀ stored, loaded = .ok stored → stored.Answers ∧
        ∃ made : Except Error (Fixture × State),
          (Fixture.create stored).run = .ok made ∧
          (∀ journal, made.map (fun made => (⟨made.1.image, made.2⟩ : Heap)) =
            ((Heap.create stored.library).run journal).1) ∧
          ∀ fixture state, made = .ok (fixture, state) → ∀ counters journal course,
            fixture.Reaches ⟨state, counters, journal⟩ course →
              Untrapped fixture ⟨state, counters, journal⟩ course := by
  refine ⟨fun map segment => followLinks_ends map (Nat.lt_succ_self segment), ?_⟩
  rcases (Stored.accept_evaluates small id options).outcome with
    ⟨error, refused, plain⟩ | ⟨stored, library, accepted, plain, rfl, sound⟩
  · exact ⟨.error error, refused, plain.symm, fun _ impossible => by cases impossible⟩
  refine ⟨.ok stored, accepted, plain.symm, ?_⟩
  rintro _ ⟨⟩
  refine ⟨sound.answers, ?_⟩
  have alike : ∀ journal, ((Heap.create stored.library).run journal).1 =
      ((Heap.create stored.library).run []).1 :=
    fun journal => (create_outcome journal).trans (create_outcome []).symm
  rcases (create_evaluates sound (placed _ plain) []).outcome with
    ⟨error, refused, absent⟩ | ⟨made, heap, created, present, same, whole, intact⟩
  · refine ⟨.error error, refused, fun journal => (absent.symm.trans (alike journal).symm), ?_⟩
    intro fixture state impossible
    cases impossible
  · refine ⟨.ok made, created, fun journal => ?_, ?_⟩
    · rw [alike, present, ← same]
      rfl
    · rintro fixture state ⟨⟩ counters journal course reached
      exact untrapped whole intact reached

/-- The code of an assembled library lies inside the address space if it begins at zero. -/
theorem assembled_placed {draft : Draft} (fits : draft.Fits) (names : draft.ClassNames)
    (name : String) (id : Nat) (library : Library)
    (loaded : Library.accept draft.assemble name id {} = .ok library) :
    library.codeBase + library.codeSize < 2 ^ 64 := by
  have accepted := Draft.accept_assemble fits.addressable names name id {}
  obtain rfl := Except.ok.inj (accepted.symm.trans loaded)
  have base : (draft.libraryNamed name id {}).codeBase = 0 := rfl
  have size : (draft.libraryNamed name id {}).codeSize = (draft.sectionContent .code).length := rfl
  have room := draft.part_length_le .code
  have tables := fits.tables
  omega

/-- The course in which the dependents of a class are swept in a heap where nothing has
happened. -/
def sweptCourse (fixture : Fixture) (start : Cell) : fixture.service.Course :=
  Service.Course.begin { state := start } (Task.call (.sweep "A"))

theorem untrusted_bytes_never_trap_sample : ∃ (stored : Stored) (fixture : Fixture) (state : State),
    (Stored.accept (Draft.describe {} "1" Edits.sample).assemble "lib" 0 {}).run =
      .ok (.ok stored) ∧
    (Fixture.create stored).run = .ok (.ok (fixture, state)) ∧ stored.Answers ∧
    fixture.Reaches ⟨state, {}, []⟩ (sweptCourse fixture ⟨state, {}, []⟩) ∧
    Untrapped fixture ⟨state, {}, []⟩ (sweptCourse fixture ⟨state, {}, []⟩) := by
  have writable := Edits.sample_writable
  have fits : (Draft.describe {} "1" Edits.sample).Fits := Draft.fits_of_length (by decide +kernel)
  have small : (Draft.describe {} "1" Edits.sample).assemble.length < 2 ^ 63 := by decide +kernel
  rw [Edits.describe_eq writable.known] at fits small ⊢
  have placed := assembled_placed fits writable.classNames "lib" 0
  obtain ⟨library, heap, loads, -, created, -⟩ :=
    built_heap writable ⟨6, by decide⟩ sample_entered fits "lib" 0 {}
  have loaded := (Edits.load_run _ _ _ _ []).symm.trans (loads [])
  obtain ⟨-, loading, accepts, same, onward⟩ :=
    untrusted_bytes_never_trap (Edits.summary {} "1" Edits.sample).assemble "lib" 0 {} small placed
  obtain ⟨stored, rfl, rfl⟩ := Outcome.map_ok.mp (same.trans loaded)
  obtain ⟨answers, making, makes, made, courses⟩ := onward stored rfl
  obtain ⟨⟨fixture, state⟩, rfl, -⟩ := Outcome.map_ok.mp ((made []).trans (created []))
  have begun : fixture.Reaches ⟨state, {}, []⟩ (sweptCourse fixture ⟨state, {}, []⟩) :=
    .single (.call _ trivial)
  exact ⟨stored, fixture, state, accepts, makes, answers, begun, courses fixture state rfl _ _ _ begun⟩

end Precompiled
