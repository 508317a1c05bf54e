import Mathlib.Data.List.Nodup
import Precompiled.Proofs.Heap.Finding
import Precompiled.Proofs.Session.Accounts

/-! Where code is at home. Whoever holds a handle can offer it to any heap of the session.
The heap of its library has the handle in its slot already and refuses it; a heap that has
a free slot for it takes it in, although it will never find it. So every heap finds the
code of its own library, however the tasks of the session are nested. -/
namespace Precompiled.Session

open Relation (ReflTransGen)

variable {session before after : Session} {position : Nat} {cell : Heap.Cell} {heap : Heap}
  {code : LinkedCode} {task : Heap.Task}

/-! ## Growing sessions -/

/-- No heap was taken away, and every heap has grown. -/
def Grows (before after : Session) : Prop :=
  ∀ (position : Nat) (heap : Heap), before.heaps[position]? = some heap →
    ∃ later : Heap, after.heaps[position]? = some later ∧ later.image = heap.image ∧
      heap.state.Grows later.state

namespace Grows

theorem of_append {fresh : List Heap} (grown : after.heaps = before.heaps ++ fresh) :
    before.Grows after := by
  intro position heap found
  obtain ⟨present, -⟩ := List.getElem?_eq_some_iff.mp found
  refine ⟨heap, ?_, rfl, .refl _⟩
  rw [grown, List.getElem?_append_left present, found]

theorem of_same (same : after.heaps = before.heaps) : before.Grows after :=
  of_append (show after.heaps = before.heaps ++ [] by rw [same, List.append_nil])

theorem trans {last : Session} (early : before.Grows after) (late : after.Grows last) :
    before.Grows last := by
  intro position heap found
  obtain ⟨middle, there, image, grown⟩ := early position heap found
  obtain ⟨later, present, same, onward⟩ := late position middle there
  exact ⟨later, present, same.trans image, grown.trans onward⟩

/-- A session grows if the heap that works does. -/
theorem set (found : session.heaps[position]? = some heap) (grown : heap.state.Grows cell.state) :
    session.Grows ((Session.cell position).set cell session) := by
  intro other old there
  rw [getElem_set cell found]
  split
  · rename_i own
    subst own
    obtain rfl := Option.some.inj (found.symm.trans there)
    exact ⟨_, rfl, rfl, grown⟩
  · exact ⟨old, there, rfl, .refl _⟩

theorem libraries (grows : before.Grows after) : before.libraries <+: after.libraries := by
  refine List.prefix_iff_getElem?.mpr fun position present => ?_
  have inside : position < before.heaps.length := by simpa [Session.libraries] using present
  obtain ⟨later, there, image, -⟩ := grows position _ (List.getElem?_eq_getElem inside)
  simp [Session.libraries, there, image]

end Grows

/-! ## Code at home -/

/-- Some heap holds the code. -/
def Has (session : Session) (code : LinkedCode) : Prop :=
  ∃ heap ∈ session.heaps, ∃ codeId, heap.state.Holds codeId code

/-- The heap of its library holds the code, in the slot of its number. -/
def Houses (session : Session) (code : LinkedCode) : Prop :=
  ∃ heap ∈ session.heaps, Heap.Indigenous heap.image.library code ∧
    heap.state.Holds code.codeId code

theorem Houses.later (houses : before.Houses code) (grows : before.Grows after) :
    after.Houses code := by
  obtain ⟨heap, among, own, holds⟩ := houses
  obtain ⟨position, found⟩ := List.mem_iff_getElem?.mp among
  obtain ⟨later, there, image, grown⟩ := grows position heap found
  exact ⟨later, List.mem_of_getElem? there, image ▸ own, grown.holds holds⟩

/-- Libraries of built blobs, each with a number of its own. -/
structure Assorted (libraries : List Library) : Prop where
  produced : ∀ library ∈ libraries, Heap.Produced library
  distinct : (libraries.map Library.id).Nodup

namespace Assorted

theorem earlier {libraries more : List Library} (assorted : Assorted more)
    (onward : libraries <+: more) : Assorted libraries where
  produced library among := assorted.produced library (onward.subset among)
  distinct := assorted.distinct.sublist (onward.sublist.map _)

/-- Heaps whose libraries bear the same number are the same heap. -/
theorem unique (assorted : Assorted session.libraries) {first second : Heap}
    (one : first ∈ session.heaps) (other : second ∈ session.heaps)
    (same : first.image.library.id = second.image.library.id) : first = second := by
  have distinct := assorted.distinct
  rw [libraries, List.map_map] at distinct
  exact List.inj_on_of_nodup_map distinct one other same

end Assorted

/-- Everything is in its place, and all code that is held anywhere is at home. -/
structure Located (session : Session) : Prop where
  surveyed : ∀ heap ∈ session.heaps, ∃ draft, Heap.Surveyed draft heap
  housed : ∀ code, session.Has code → session.Houses code

namespace Located

/-- A heap that works brings code to light only if the code is its own or at home
already. -/
theorem set (located : Located session) (found : session.heaps[position]? = some heap)
    (grown : heap.state.Grows cell.state)
    (surveyed : ∃ draft, Heap.Surveyed draft { heap with state := cell.state })
    (origin : ∀ codeId code, cell.state.Holds codeId code → heap.state.Holds codeId code ∨
      codeId = code.codeId ∧ Heap.Indigenous heap.image.library code ∨ session.Houses code) :
    Located ((Session.cell position).set cell session) := by
  have onward : session.Grows ((Session.cell position).set cell session) := .set found grown
  have each : ∀ other ∈ ((Session.cell position).set cell session).heaps,
      other = { heap with state := cell.state } ∨ other ∈ session.heaps := by
    intro other among
    obtain ⟨place, there⟩ := List.mem_iff_getElem?.mp among
    rw [getElem_set cell found] at there
    split at there
    · exact .inl (Option.some.inj there).symm
    · exact .inr (List.mem_of_getElem? there)
  have here : ({ heap with state := cell.state } : Heap) ∈
      ((Session.cell position).set cell session).heaps :=
    List.mem_of_getElem? ((getElem_set cell found position).trans (if_pos rfl))
  constructor
  · intro other among
    rcases each other among with rfl | old
    · exact surveyed
    · exact located.surveyed other old
  · rintro code ⟨other, among, codeId, holds⟩
    rcases each other among with rfl | old
    · rcases origin codeId code holds with old | ⟨rfl, own⟩ | houses
      · exact (located.housed code ⟨heap, List.mem_of_getElem? found, codeId, old⟩).later onward
      · exact ⟨_, here, own, holds⟩
      · exact houses.later onward
    · exact (located.housed code ⟨other, old, codeId, holds⟩).later onward

/-- A heap that was just built holds code of its own. -/
theorem enrol {fresh : List Heap} (located : Located before)
    (assorted : Assorted after.libraries)
    (built : ∀ heap ∈ fresh, build heap.image.library = .ok heap)
    (grown : after.heaps = before.heaps ++ fresh) : Located after := by
  constructor
  · intro heap among
    have produced := assorted.produced _ (List.mem_map_of_mem among)
    rw [grown] at among
    rcases List.mem_append.mp among with old | new
    · exact located.surveyed heap old
    · exact Heap.created_surveyed produced (built heap new)
  · rintro code ⟨heap, among, codeId, holds⟩
    rcases List.mem_append.mp (grown ▸ among) with old | new
    · exact (located.housed code ⟨heap, old, codeId, holds⟩).later (.of_append grown)
    · have created := built heap new
      obtain ⟨slot, found, held⟩ := holds
      obtain ⟨-, -, rfl⟩ := (Heap.created_pristine created codeId slot found).stub code held
      have holds : heap.state.Holds code.codeId code := ⟨slot, found, held⟩
      exact ⟨heap, among, Heap.created_indigenous created _ code holds, holds⟩

end Located

/-! ## Customs -/

/-- Everything is in its place, unless there are libraries that were not built or share a
number. -/
def Settled (session : Session) : Prop :=
  Assorted session.libraries → Located session

/-- Work on a session that leaves everything in its place. -/
structure Tends (before after : Session) : Prop where
  grows : before.Grows after
  settled : before.Settled → after.Settled

def upkeep : Conduct surroundings Session where
  change _ := Tends
  question _ _ := Tends
  rely := Grows

def housekeeping : service.Customs where
  change _ := upkeep.change
  question _ := upkeep.question
  rely := upkeep.rely
  reply _ _ _ _ := True

/-- The code that a task comes with is at home. -/
def Supplies (task : Heap.Task) (session : Session) : Prop :=
  ∀ code, task.code? = some code → Assorted session.libraries → session.Houses code

theorem Supplies.later (supplies : Supplies task before) (grows : before.Grows after) :
    Supplies task after := fun code given assorted =>
  (supplies code given (assorted.earlier grows.libraries)).later grows

/-- Code of its library that a task comes with is at home in the heap itself. -/
theorem Supplies.backs (supplies : Supplies task session) (assorted : Assorted session.libraries)
    (among : heap ∈ session.heaps) : heap.state.Backs heap.image.library task := by
  intro code given own
  obtain ⟨home, there, same, holds⟩ := supplies code given assorted
  obtain rfl := assorted.unique there among (same.symm.trans own)
  exact holds

/-- Work of one heap leaves everything in its place if it does so in the heap, and brings
only code to light that is its own or at home already. -/
theorem tends_set (found : session.heaps[position]? = some heap)
    (grown : heap.state.Grows cell.state)
    (work : ∀ draft, Assorted session.libraries → Heap.Surveyed draft heap →
      Heap.Surveyed draft { heap with state := cell.state } ∧
        ∀ codeId code, cell.state.Holds codeId code → heap.state.Holds codeId code ∨
          codeId = code.codeId ∧ Heap.Indigenous heap.image.library code ∨ session.Houses code) :
    session.Tends ((Session.cell position).set cell session) where
  grows := .set found grown
  settled settled assorted := by
    have earlier := assorted.earlier (Grows.set found grown).libraries
    have located := settled earlier
    obtain ⟨draft, surveyed⟩ := located.surveyed heap (List.mem_of_getElem? found)
    obtain ⟨later, origin⟩ := work draft earlier surveyed
    exact located.set found grown ⟨draft, later⟩ origin

theorem tends_change {known : Heap.surroundings.Heard} (supplies : Supplies task session)
    (found : session.heaps[position]? = some heap)
    (change : Heap.Task.Change heap.image task known heap.state cell.state) :
    session.Tends ((Session.cell position).set cell session) := by
  refine tends_set found change.touches.grows fun draft assorted surveyed => ?_
  refine ⟨surveyed.change (supplies.backs assorted (List.mem_of_getElem? found)) change, ?_⟩
  exact fun codeId code holds => .inl (change.touches.inherits surveyed.orderly holds)

/-- What a heap installs is its own code or code that is at home. -/
theorem tends_ask {question : Heap.Question} (supplies : Supplies task session)
    (found : session.heaps[position]? = some heap)
    (asked : Heap.Task.Ask heap.image task question heap.state cell.state) :
    session.Tends ((Session.cell position).set cell session) := by
  refine tends_set found asked.grows fun draft assorted surveyed => ?_
  refine ⟨surveyed.ask (supplies.backs assorted (List.mem_of_getElem? found)) asked, ?_⟩
  intro codeId code holds
  rcases asked.keeps with keeps | ⟨new, origin, installed⟩
  · exact .inl (keeps.holds holds)
  · rcases installed.inherits holds with ⟨rfl, rfl⟩ | old
    · rcases origin with given | ⟨entry, holder, linked⟩
      · exact .inr (.inr (supplies code given assorted))
      · exact .inr (.inl ⟨rfl, linked.indigenous⟩)
    · exact .inl old

theorem upkeep_hosts (task : Heap.Task) :
    Hosts (fun image => Heap.taskConduct image task Heap.State.Grows) upkeep (Supplies task) where
  changed {position session heap cell _} _ supplies found change := by
    have change : cell.state = _ ∨ Heap.Task.Change heap.image task _ _ cell.state := change
    rw [get_state found] at change
    have tends : session.Tends ((Session.cell position).set cell session) := by
      rcases change with same | change
      · refine tends_set found (.of_slots (by rw [same])) fun draft _ surveyed => ?_
        rw [same]
        exact ⟨surveyed, fun _ _ holds => .inl holds⟩
      · exact tends_change supplies found change
    exact ⟨tends, supplies.later tends.grows⟩
  asked {position session heap cell question _} _ supplies found asked := by
    have asked : Heap.Task.Ask heap.image task question _ cell.state := asked
    rw [get_state found] at asked
    have tends := tends_ask supplies found asked
    exact ⟨tends, supplies.later tends.grows⟩
  relied {before after} supplies grows := by
    refine ⟨supplies.later grows, fun position heap found => ?_⟩
    obtain ⟨later, there, image, grown⟩ := grows position heap found
    refine ⟨later, there, by rw [image], ?_⟩
    show Heap.State.Grows ((Session.cell position).get before).state _
    rw [get_state found, get_state there]
    exact grown

/-- Offers leave everything in its place. -/
theorem tends_offer (offer : Offer) : session.Tends ((submit offer).run session).2 := by
  obtain ⟨fresh, built, grown, -⟩ := offer_enrols session offer
  have grows := Grows.of_append grown
  refine ⟨grows, fun settled assorted => ?_⟩
  exact (settled (assorted.earlier grows.libraries)).enrol assorted built grown

theorem housekeeping_borne : housekeeping.Borne fun _ => True where
  steady _ := .of_same rfl
  lasting early late := early.trans late
  changed _ tends := tends.grows
  asked _ tends := tends.grows
  drifted drifted := by
    rw [drifted]
    exact .of_same rfl

theorem settled_preserved : housekeeping.Preserves (fun _ => True) fun _ => Settled where
  changed _ settled tends := tends.settled settled
  asked _ settled tends := tends.settled settled
  called _ settled := settled
  answered _ settled := settled
  replied _ settled _ := settled
  drifted settled drifted := by
    rw [drifted]
    exact fun assorted => ⟨(settled assorted).surveyed, (settled assorted).housed⟩

/-! ## Courses -/

/-- The code that a task comes with. -/
def Task.code? : Task → Option LinkedCode
  | .one _ task | .all task => task.code?
  | .offer _ => none

/-- Code that a task comes with was obtained from a heap of the session. -/
def Sourced (course : service.Course) (task : Task) : Prop :=
  ∀ code, task.code? = some code → course.state.Has code

theorem sourced_begins :
    housekeeping.Begins Sourced (fun _ => True) fun _ => Settled := by
  intro course task settled sourced
  refine ⟨trivial, fun heard => ?_⟩
  have supplies : ∀ {work : Heap.Task}, task.code? = work.code? → Supplies work course.state := by
    intro work same code given assorted
    exact (settled assorted).housed code (sourced code (same.trans given))
  cases task with
  | one position work =>
    exact ((upkeep_hosts work).taskAt (fun _ => Heap.task_follows work) position
      (supplies rfl)).weaken fun _ _ _ _ _ => trivial
  | all work =>
    exact ((upkeep_hosts work).taskEach (fun _ => Heap.task_follows work) _ (supplies rfl)).weaken
      fun _ _ _ _ _ => trivial
  | offer made => exact ⟨.single (tends_offer made), trivial⟩

/-- A session is settled when its heaps were just built. -/
theorem settled_fresh (built : ∀ heap ∈ session.heaps, build heap.image.library = .ok heap) :
    Settled session := by
  intro assorted
  have empty : Located { session with heaps := [] } :=
    ⟨fun _ among => (List.not_mem_nil among).elim,
      fun _ ⟨_, among, _⟩ => (List.not_mem_nil among).elim⟩
  exact empty.enrol assorted built rfl

/-- However the tasks of a session are nested and whatever they are answered, every heap
finds the code of its own library from its publication on, and no other code. If a heap
publishes code that it is given, the code is of another library. -/
theorem published_code_found (built : ∀ heap ∈ session.heaps, build heap.image.library = .ok heap)
    {course : service.Course} (reached : Service.Reaches Sourced session course)
    (assorted : Assorted course.state.libraries) :
    ∀ heap ∈ course.state.heaps, Heap.Finds heap ∧
      ∀ code winner answers cell later, course.state.Has code → cell.state = heap.state →
        (Heap.publish heap.image code).finish answers cell = (.published winner, later) →
          winner = code ∧ Heap.Misplaced heap winner later.state := by
  have sound := reached.sound housekeeping_borne settled_preserved.sustains sourced_begins
    (settled_fresh built)
  have located := sound.holding assorted
  intro heap among
  obtain ⟨draft, surveyed⟩ := located.surveyed heap among
  refine ⟨surveyed.finds, fun code winner answers cell later has current published => ?_⟩
  refine surveyed.publish_misplaces current (fun own => ?_) published
  obtain ⟨home, there, same, holds⟩ := located.housed code has
  obtain rfl := assorted.unique there among (same.symm.trans own)
  exact holds

/-! ## Two heaps -/

/-- The heap of a blob with one method, under a number and at an address. -/
def opened? (name : String) (id base : Nat) : Option Heap :=
  ((Library.load (Blob.Draft.describe {} "1" Heap.single).assemble name id
      { verifyChecksum := false, codeBase := base }).run []).1.toOption.bind fun library =>
    (build library).toOption

/-- A session with two such heaps. -/
def neighbours? : Option Session :=
  (opened? "a.aot" 0 0).bind fun first => (opened? "b.aot" 1 4096).map fun second =>
    { options := {}, engine := {}, heaps := [first, second] }

/-- The method is published in the first heap. -/
def loan : List service.Call := [Task.one 0 (.call (.loadClass Heap.sampleView))]

def lent (session : Session) : Session :=
  Service.carryOut (spread lavish) service loan session

/-- What the second heap makes of code that it is given. -/
def lodged (heap : Heap) (code : LinkedCode) : Slot.Publication × Heap.Cell :=
  (Heap.publish heap.image code).finish (fun request => Heap.lavish (.engine request))
    { state := heap.state }

/-- The second heap publishes the code of the first and does not find it. -/
def strays (session : Session) : Bool :=
  match session.heaps with
  | [first, second] => (first.state.executable? 0).any fun code =>
      (lodged second code).1 == .published code && code.libraryId != second.image.library.id &&
        decide (code.start < code.stop) &&
        !Heap.contains { second with state := (lodged second code).2.state } code.start
  | _ => false

set_option maxRecDepth 1000000 in
theorem neighbours_stray : neighbours?.any (fun session =>
    (lent session).libraries == session.libraries &&
      (lent session).libraries.map Library.id == [0, 1] && strays (lent session)) = true := by
  decide +kernel

theorem opened_some {name : String} {id base : Nat} (opened : opened? name id base = some heap) :
    build heap.image.library = .ok heap ∧ Heap.Produced heap.image.library := by
  obtain ⟨library, loaded, made⟩ := Option.bind_eq_some_iff.mp opened
  have built := Outcome.toOption_some.mp made
  obtain rfl := build_library built
  exact ⟨built, {}, "1", Heap.single, name, id, _, [], Heap.single_known,
    Blob.Draft.fits_of_length (by decide +kernel), Outcome.toOption_some.mp loaded⟩

/-- In a session that can come about, the first heap holds code of its own, and a second
heap publishes it and does not find it. -/
theorem neighbours_met : ∃ (session : Session) (course : service.Course) (second : Heap)
    (code : LinkedCode), (∀ heap ∈ session.heaps, build heap.image.library = .ok heap) ∧
    Service.Reaches Sourced session course ∧ Assorted course.state.libraries ∧
    second ∈ course.state.heaps ∧ course.state.Has code ∧
    (lodged second code).1 = .published code ∧ code.libraryId ≠ second.image.library.id ∧
    code.start < code.stop ∧
    Heap.contains { second with state := (lodged second code).2.state } code.start = false := by
  obtain ⟨session, met, all⟩ := (Option.any_eq_true _ _).mp neighbours_stray
  simp only [Bool.and_eq_true, beq_iff_eq] at all
  obtain ⟨⟨same, numbers⟩, stray⟩ := all
  obtain ⟨first, opened, met⟩ := Option.bind_eq_some_iff.mp met
  obtain ⟨second, beside, rfl⟩ := Option.map_eq_some_iff.mp met
  have plain : ∀ call ∈ loan, ∀ other : service.Course, other.pending = [] →
      Sourced other call := by
    intro call among other idle code given
    obtain rfl := List.mem_singleton.mp among
    cases given
  let start : service.Course :=
    { state := { options := {}, engine := {}, heaps := [first, second] } }
  obtain ⟨course, onward, -, state⟩ : ∃ course, ReflTransGen (Service.Step Sourced) start course ∧
      course.pending = [] ∧ course.state = lent start.state :=
    start.carries_out (spread lavish) loan rfl plain
  unfold strays at stray
  split at stray
  · rename_i lender borrower heaps
    obtain ⟨code, running, found⟩ := (Option.any_eq_true _ _).mp stray
    simp only [Bool.and_eq_true, beq_iff_eq, bne_iff_ne, decide_eq_true_eq,
      Bool.not_eq_true'] at found
    obtain ⟨⟨⟨published, foreign⟩, some⟩, unfound⟩ := found
    have holds := (Heap.holds_of_executable running).1
    refine ⟨start.state, course, borrower, code, ?_, onward, ⟨?_, ?_⟩, ?_, ?_, published, foreign,
      some, unfound⟩
    · simp [start, (opened_some opened).1, (opened_some beside).1]
    · rw [state, same]
      simp [libraries, (opened_some opened).2, (opened_some beside).2]
    · rw [state, numbers]
      decide
    · rw [state, heaps]
      simp
    · rw [state]
      exact ⟨lender, by simp [start, heaps], 0, holds⟩
  · cases stray

/-- The second heap publishes the code of the first, and afterwards finds nothing there. -/
theorem published_unfound : ∃ (session : Session) (course : service.Course) (heap : Heap)
    (code : LinkedCode) (later : Heap.Cell),
    (∀ heap ∈ session.heaps, build heap.image.library = .ok heap) ∧
    Service.Reaches Sourced session course ∧ Assorted course.state.libraries ∧
    heap ∈ course.state.heaps ∧ course.state.Has code ∧
    (Heap.publish heap.image code).finish (fun request => Heap.lavish (.engine request))
      { state := heap.state } = (.published code, later) ∧
    code.libraryId ≠ heap.image.library.id ∧ code.start < code.stop ∧
    Heap.contains { heap with state := later.state } code.start = false ∧
    Heap.findOwner { heap with state := later.state } code.start = none := by
  obtain ⟨session, course, heap, code, built, reached, assorted, among, has, published, foreign,
    some, unfound⟩ := neighbours_met
  refine ⟨session, course, heap, code, _, built, reached, assorted, among, has,
    Prod.ext published rfl, foreign, some, unfound, ?_⟩
  rw [Heap.contains, Option.isSome_eq_false_iff, Option.isNone_iff_eq_none] at unfound
  rw [Heap.findOwner]
  exact congrArg (Option.bind · _) unfound

theorem published_code_found_neighbours : ∃ (session : Session) (course : service.Course),
    (∀ heap ∈ session.heaps, build heap.image.library = .ok heap) ∧
    Service.Reaches Sourced session course ∧ Assorted course.state.libraries ∧
    (∀ heap ∈ course.state.heaps, Heap.Finds heap) ∧
    ∃ heap ∈ course.state.heaps, ∃ code answers later, course.state.Has code ∧
      (Heap.publish heap.image code).finish answers { state := heap.state } =
        (.published code, later) ∧ Heap.Misplaced heap code later.state := by
  obtain ⟨session, course, heap, code, built, reached, assorted, among, has, published, -, -, -⟩ :=
    neighbours_met
  have given : (Heap.publish heap.image code).finish
      (fun request => Heap.lavish (.engine request)) { state := heap.state } =
        (.published code, (lodged heap code).2) := Prod.ext published rfl
  refine ⟨session, course, built, reached, assorted,
    fun heap among => (published_code_found built reached assorted heap among).1, heap, among, code,
    _, _, has, given, ?_⟩
  exact ((published_code_found built reached assorted heap among).2 code code _ _ _ has rfl given).2

end Precompiled.Session
