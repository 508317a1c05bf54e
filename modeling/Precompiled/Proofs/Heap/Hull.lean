import Precompiled.Proofs.Heap.Admission
import Precompiled.Proofs.Heap.Commutation
import Precompiled.Proofs.Heap.Integrity

/-! The bounds of a heap. Whatever the order in which code is published, and whatever is
invalidated afterwards, the bounds are those of the code that slots hold: the low one is
where the first of it begins, the high one where the last of it ends. A slot counts once,
when its handle is stored; since all code of a heap has a place in its code section, whose
offsets fit a word, nothing is lost when both offsets are packed into one. While no slot
holds a handle there are no bounds, and both boundaries stand at the code base. -/
namespace Precompiled.Heap

open Relation (ReflTransGen)

variable {heap : Heap} {library : Library} {image : Image} {before after state : State}
  {code : LinkedCode} {codeId : Nat} {task : Task} {course : (service heap.image).Course}

/-! ## Code with a place -/

/-- Code of the library that has a place in its code section. -/
structure Lodged (library : Library) (code : LinkedCode) : Prop where
  own : Indigenous library code
  above : library.codeBase ≤ code.start
  ordered : code.start < code.stop
  inside : code.stop ≤ library.codeBase + library.codeSize

theorem place_lodged {record : Blob.CodeRecord} {detail : Blob.CodeDetail} {name : MethodName}
    {method : Option MethodRef} {holder : Option ClassRef} {classId : Option Nat}
    (placed : image.place record detail name method holder classId = .ok code) :
    Lodged image.library code := by
  obtain ⟨offset, start, geometry, rfl⟩ := place_ok.mp placed
  have entered := geometry.entry
  have inside := geometry.inside
  refine ⟨rfl, Nat.le_add_right _ _, ?_, ?_⟩
  · show _ < _ + detail.codeSize.toNat
    omega
  · show _ + offset + detail.codeSize.toNat ≤ _
    omega

theorem Linked.lodged {entry : ClassEntry} {holder : ClassRef}
    (linked : Linked image entry holder code) : Lodged image.library code := by
  obtain ⟨records, record, detail, name, live, -, -, -, -, placed⟩ := linked.placed
  exact place_lodged placed

theorem stubCode_lodged {record : Blob.CodeRecord} (coded : stubCode image record = .ok code) :
    Lodged image.library code := by
  obtain ⟨name, detail, -, placed⟩ := stubCode_placed coded
  exact place_lodged placed

/-! ## The hull of what is held -/

/-- Where the code that slots hold begins and ends. -/
def State.ranges (state : State) : Set (Nat × Nat) :=
  {range | ∃ codeId code, state.Holds codeId code ∧ range = (code.start, code.stop)}

theorem ranges_empty : state.ranges = ∅ ↔ ∀ codeId code, ¬state.Holds codeId code := by
  rw [Set.eq_empty_iff_forall_notMem]
  constructor
  · exact fun none codeId code holds => none _ ⟨codeId, code, holds, rfl⟩
  · rintro none _ ⟨codeId, code, holds, -⟩
    exact none codeId code holds

theorem State.Grows.ranges (grows : before.Grows after) : before.ranges ⊆ after.ranges := by
  rintro _ ⟨codeId, code, holds, rfl⟩
  exact ⟨codeId, code, grows.holds holds, rfl⟩

theorem State.Keeps.ranges (keeps : before.Keeps after) (grows : before.Grows after) :
    after.ranges = before.ranges := by
  refine Set.Subset.antisymm ?_ grows.ranges
  rintro _ ⟨codeId, code, holds, rfl⟩
  exact ⟨codeId, code, keeps.holds holds, rfl⟩

theorem Install.ranges (installed : Install image code before after) :
    after.ranges = insert (code.start, code.stop) before.ranges := by
  ext range
  constructor
  · rintro ⟨codeId, taken, holds, rfl⟩
    rcases installed.inherits holds with ⟨-, rfl⟩ | holds
    · exact Set.mem_insert _ _
    · exact Set.mem_insert_of_mem _ ⟨codeId, taken, holds, rfl⟩
  · rintro (rfl | among)
    · obtain ⟨-, slot, there, -, held⟩ := installed.taken
      exact ⟨code.codeId, code, ⟨slot, there, held⟩, rfl⟩
    · exact installed.grows.ranges among

/-- All code that is held has its place, the slots that hold code and no others are
admitted, and the extent is the hull of the code. -/
structure Spanned (image : Image) (state : State) : Prop where
  orderly : state.Orderly
  lodged : state.Every (Lodged image.library)
  admitted : ∀ (codeId : Nat) (slot : Slot), state.slots[codeId]? = some slot →
    (slot.admitted = true ↔ slot.handle.isSome = true)
  hull : state.extent.Hull image.library.codeBase state.ranges

theorem initial_spanned : Spanned image image.initialState := by
  have free : ∀ codeId code, ¬image.initialState.Holds codeId code := by
    rintro codeId code ⟨slot, there, held⟩
    obtain rfl : slot = {} := List.eq_of_mem_replicate (List.mem_of_getElem? there)
    cases held
  refine ⟨fun codeId slot there => (initial_pristine codeId slot there).orderly, initial_every, ?_,
    ranges_empty.mpr free⟩
  intro codeId slot there
  obtain rfl : slot = {} := List.eq_of_mem_replicate (List.mem_of_getElem? there)
  exact Iff.rfl

namespace Spanned

theorem keeps (spanned : Spanned image before) (orderly : after.Orderly)
    (grows : before.Grows after) (keeps : before.Keeps after) : Spanned image after where
  orderly := orderly
  lodged codeId code holds := spanned.lodged codeId code (keeps.holds holds)
  admitted codeId slot there := by
    obtain ⟨old, found, handle, admitted⟩ := keeps.slots codeId slot there
    rw [handle, admitted]
    exact spanned.admitted codeId old found
  hull := by
    rw [keeps.extent, keeps.ranges grows]
    exact spanned.hull

/-- Code that is put into a free slot is counted there and then. -/
theorem install (spanned : Spanned image before) (small : image.library.codeSize ≤ maxCodeSize)
    (lodged : Lodged image.library code) (installed : Install image code before after) :
    Spanned image after := by
  have orderly := spanned.orderly.install installed
  have every := spanned.lodged.install lodged installed
  have ranges := installed.ranges
  obtain ⟨slot, found, free, admits⟩ := install_own lodged.own installed
  have outside : slot.admitted = false := by
    rw [← Bool.not_eq_true, spanned.admitted _ _ found, free]
    exact Bool.false_ne_true
  obtain rfl := admits outside
  refine ⟨orderly, every, ?_, ?_⟩
  · intro other there reached
    rcases set_slot reached with ⟨-, rfl⟩ | ⟨-, elsewhere⟩
    · exact ⟨fun _ => rfl, fun _ => rfl⟩
    · exact spanned.admitted other there elsewhere
  · have inside := lodged.inside
    have limit : maxCodeSize = 4294967295 := rfl
    rw [ranges]
    exact spanned.hull.widen lodged.above lodged.ordered (by omega)

/-- Code in its slot is not counted again. -/
theorem admitCode_held (spanned : Spanned image state) (holds : state.Holds codeId code) :
    state.admitCode image code = (false, state) := by
  have own := spanned.lodged codeId code holds
  obtain ⟨slot, found, held⟩ := holds
  obtain ⟨-, same⟩ := (spanned.orderly codeId slot found).handle code held
  have admitted : slot.admitted = true := by
    rw [spanned.admitted codeId slot found, held]
    rfl
  have libraries : code.libraryId = image.library.id := own.own
  simp [State.admitCode, libraries, same, found, admitted]

end Spanned

/-! ## Tasks -/

/-- Code that a task comes with was obtained from the heap. -/
def Homegrown (course : (service image).Course) (task : Task) : Prop :=
  ∀ code, task.code? = some code → ∃ codeId, course.state.state.Holds codeId code

/-- Tasks that do not count code keep the bounds right, if the code that they come with
has its place. -/
theorem Spanned.change {heard : surroundings.Heard} (spanned : Spanned image before)
    (counts : ∀ code, task ≠ .call (.admitCode code))
    (change : Task.Change image task heard before after) : Spanned image after := by
  have touches := change.touches
  refine spanned.keeps (spanned.orderly.touches touches) touches.grows ?_
  cases change with
  | call change =>
    refine Heap.Change.keeps spanned.orderly ?_ change
    rintro code rfl
    exact absurd rfl (counts code)
  | collect relocated =>
    cases relocated
    exact .of_same rfl rfl

theorem Spanned.ask {question : Question} (spanned : Spanned image before)
    (small : image.library.codeSize ≤ maxCodeSize)
    (given : ∀ code, task.code? = some code → Lodged image.library code)
    (asked : Task.Ask image task question before after) : Spanned image after := by
  rcases asked.keeps with keeps | ⟨code, own | ⟨entry, holder, linked⟩, installed⟩
  · exact spanned.keeps (spanned.orderly.ask asked) asked.grows keeps
  · exact spanned.install small (given code own) installed
  · exact spanned.install small linked.lodged installed

/-- Every task keeps the bounds right from where it begins with code of the heap. -/
theorem homegrown_begins (small : image.library.codeSize ≤ maxCodeSize) :
    (keeping image (Spanned image)).Begins Homegrown (fun _ => True)
      fun _ cell => Spanned image cell.state := by
  intro course task spanned homegrown
  refine ⟨trivial, fun heard => ?_⟩
  by_cases counts : ∃ code, task = .call (.admitCode code)
  · -- Counting asks nothing, so the code is still in its slot when it is counted.
    obtain ⟨code, rfl⟩ := counts
    obtain ⟨codeId, holds⟩ := homegrown code rfl
    have counted := spanned.admitCode_held holds
    refine ⟨.single fun _ => ?_, trivial⟩
    show Spanned image (State.admitCode image code course.state.state).2
    rwa [counted]
  · have stays : ∀ code, task ≠ .call (.admitCode code) := fun code same => counts ⟨code, same⟩
    have given : ∀ code, task.code? = some code → Lodged image.library code := by
      intro code came
      obtain ⟨codeId, holds⟩ := homegrown code came
      exact spanned.lodged codeId code holds
    have follows : (task.perform image).Follows (taskConduct image task fun _ _ => True) :=
      task_follows task
    refine (follows heard course.state).loosen ?_ ?_ fun _ _ _ => trivial
    · rintro heard before after (same | change) spanned
      · rwa [same]
      · exact spanned.change stays change
    · exact fun heard request before after asked spanned => spanned.ask small given asked

theorem Settles.spanned {records : List Blob.CodeRecord}
    (small : image.library.codeSize ≤ maxCodeSize) (settles : Settles image records before after)
    (spanned : Spanned image before) : Spanned image after := by
  induction settles with
  | refl => exact spanned
  | tail _ step ih =>
    obtain ⟨record, -, stub, coded, installed⟩ := step
    exact ih.install small (stubCode_lodged coded) installed

/-- The bounds of a heap that was just created are those of its stubs. -/
theorem created_spanned {journal : Journal}
    (created : ((Heap.create library).run journal).1 = .ok heap) :
    heap.image.library.codeSize ≤ maxCodeSize ∧ Spanned heap.image heap.state := by
  obtain ⟨stubs, prepared, settled⟩ := create_ok.mp created
  have small := prepare_codeSize prepared
  obtain ⟨rfl, -, -⟩ := prepare_claims prepared
  obtain ⟨settles, -⟩ := settleAll_settles (fun _ member => member) initial_pristine settled
  exact ⟨small, settles.spanned small initial_spanned⟩

/-- The bounds are right in every course, however tasks are nested. -/
theorem Reaches.spanned {journal : Journal}
    (created : ((Heap.create library).run journal).1 = .ok heap)
    (reached : Reaches heap Homegrown course) : Spanned heap.image course.state.state := by
  obtain ⟨small, spanned⟩ := created_spanned created
  obtain ⟨counters, journal, reached⟩ := reached
  exact (reached.sound keeping_borne keeping_preserves.sustains (homegrown_begins small)
    spanned).holding

/-! ## What was published -/

/-- The code that the engine is told to install. -/
def installed? : (service image).Event → Option LinkedCode
  | .asked _ (.engine (.install code)) => some code
  | _ => none

/-- The code that was published in the past, the latest first. -/
def publications (past : Past image) : List LinkedCode :=
  past.filterMap fun moment => installed? moment.event

theorem installed_plain {question : Question} (plain : ∀ code, question ≠ .engine (.install code)) :
    installed? (.asked task question : (service image).Event) = none := by
  unfold installed?
  split
  · rename_i same
    cases same
    exact absurd rfl (plain _)
  · rfl

/-- Slots hold what they held in the beginning and what was published since, which was
not there before. -/
structure Accrued (heap : Heap) (past : Past heap.image) (state : State) : Prop where
  orderly : state.Orderly
  held : ∀ codeId code, state.Holds codeId code ↔
    heap.state.Holds codeId code ∨ codeId = code.codeId ∧ code ∈ publications past
  fresh : ∀ code ∈ publications past, ¬heap.state.Holds code.codeId code

namespace Accrued

variable {past : Past heap.image}

theorem touches (accrued : Accrued heap past before) (touches : before.Touches after) :
    Accrued heap past after where
  orderly := accrued.orderly.touches touches
  held codeId code := by
    rw [← accrued.held]
    exact ⟨touches.inherits accrued.orderly, touches.grows.holds⟩
  fresh := accrued.fresh

/-- A moment at which nothing is installed adds nothing. -/
theorem note (accrued : Accrued heap past state) {event : (service heap.image).Event}
    (plain : installed? event = none) (cell : Cell) :
    Accrued heap (⟨event, cell⟩ :: past) state := by
  have same : publications (⟨event, cell⟩ :: past) = publications past :=
    List.filterMap_cons_none plain
  exact ⟨accrued.orderly, same ▸ accrued.held, same ▸ accrued.fresh⟩

theorem install (accrued : Accrued heap past before) {cell : Cell}
    (installed : Install heap.image code before cell.state) :
    Accrued heap (⟨.asked task (.engine (.install code)), cell⟩ :: past) cell.state := by
  have listed : publications (⟨.asked task (.engine (.install code)), cell⟩ :: past) =
      code :: publications past := rfl
  refine ⟨accrued.orderly.install installed, fun codeId taken => ?_, fun taken => ?_⟩
  · rw [listed, List.mem_cons]
    constructor
    · intro holds
      rcases installed.inherits holds with ⟨rfl, rfl⟩ | holds
      · exact .inr ⟨rfl, .inl rfl⟩
      · exact ((accrued.held codeId taken).mp holds).imp_right (.imp_right .inr)
    · rintro (initial | ⟨rfl, rfl | among⟩)
      · exact installed.grows.holds ((accrued.held codeId taken).mpr (.inl initial))
      · obtain ⟨-, slot, there, -, held⟩ := installed.taken
        exact ⟨slot, there, held⟩
      · exact installed.grows.holds ((accrued.held _ taken).mpr (.inr ⟨rfl, among⟩))
  · rw [listed, List.mem_cons]
    rintro (rfl | among) initial
    · exact installed.absent taken ((accrued.held _ taken).mpr (.inl initial))
    · exact accrued.fresh taken among initial

/-- What was published is what slots hold and did not hold in the beginning. -/
theorem mem_publications (accrued : Accrued heap past state) :
    code ∈ publications past ↔
      state.Holds code.codeId code ∧ ¬heap.state.Holds code.codeId code := by
  rw [accrued.held]
  exact ⟨fun among => ⟨.inr ⟨rfl, among⟩, accrued.fresh code among⟩,
    fun ⟨holds, fresh⟩ => (holds.resolve_left fresh).2⟩

theorem preserved : (customs heap.image State.Grows).Preserves (fun _ => True)
    fun past cell => Accrued heap past cell.state where
  changed _ accrued change := by
    rcases change with same | change
    · rwa [same]
    · exact accrued.touches change.touches
  asked _ accrued asked := by
    rcases asked.touches with ⟨touches, plain⟩ | ⟨code, rfl, installed⟩
    · exact (accrued.touches touches).note (installed_plain plain) _
    · exact accrued.install installed
  called _ accrued := accrued.note rfl _
  answered _ accrued := accrued.note rfl _
  replied _ accrued _ := accrued.note rfl _
  drifted accrued drifted := by rwa [drifted]

end Accrued

theorem Reaches.accrued {admits : (service heap.image).Course → Task → Prop}
    (pristine : heap.state.Pristine) (reached : Reaches heap admits course) :
    Accrued heap course.past course.state.state := by
  obtain ⟨counters, journal, reached⟩ := reached
  have initial : Accrued heap [] heap.state :=
    ⟨fun codeId slot found => (pristine codeId slot found).orderly,
      fun _ _ => by simp [publications], List.forall_mem_nil _⟩
  exact Service.Reaches.holding (customs_kept fun _ => True) Accrued.preserved.sustains
    (fun _ _ _ => trivial) initial reached

/-! ## The bounds of a heap -/

/-- The bounds of a heap are those of the code that its slots hold, and it is empty while
they hold none. -/
structure Hulled (heap : Heap) : Prop where
  empty : heap.isEmpty = true ↔ ∀ codeId code, ¬heap.state.Holds codeId code
  low : heap.isEmpty = false → IsLeast (Prod.fst '' heap.state.ranges) heap.lowBoundary
  high : heap.isEmpty = false → IsGreatest (Prod.snd '' heap.state.ranges) heap.highBoundary

theorem hulled_of_hull
    (hull : heap.state.extent.Hull heap.image.library.codeBase heap.state.ranges) :
    Hulled heap := by
  have bounds : heap.isEmpty = false →
      ∃ low high, heap.state.extent.bounds? = some (low, high) := by
    intro some
    obtain ⟨⟨low, high⟩, bounds⟩ := Option.isSome_iff_exists.mp (Option.isNone_eq_false_iff.mp some)
    exact ⟨low, high, bounds⟩
  refine ⟨?_, fun some => ?_, fun some => ?_⟩
  · rw [isEmpty, Option.isNone_iff_eq_none, hull.isNone_iff, ranges_empty]
  · obtain ⟨low, high, bounds⟩ := bounds some
    have least := (hull.bounds bounds).1
    simpa [lowBoundary, bounds] using least
  · obtain ⟨low, high, bounds⟩ := bounds some
    have greatest := (hull.bounds bounds).2
    simpa [highBoundary, bounds] using greatest

/-- Wherever a heap gets with code of its own its bounds are the hull of the code that
its slots hold. From there on they only move apart, and another course in which the same
code was published, in whatever order, has the same bounds. -/
theorem bounds_hull {journal : Journal}
    (created : ((Heap.create library).run journal).1 = .ok heap)
    (reached : Reaches heap Homegrown course) :
    Hulled { heap with state := course.state.state } ∧
    (∀ later low high, ReflTransGen (Service.Step Homegrown) course later →
      course.state.state.extent.bounds? = some (low, high) →
      ∃ lower upper, later.state.state.extent.bounds? = some (lower, upper) ∧
        lower ≤ low ∧ high ≤ upper) ∧
    ∀ other, Reaches heap Homegrown other →
      (∀ code, code ∈ publications other.past ↔ code ∈ publications course.past) →
      other.state.state.extent.bounds? = course.state.state.extent.bounds? := by
  have spanned := reached.spanned created
  refine ⟨hulled_of_hull spanned.hull, ?_, ?_⟩
  · intro later low high onward bounds
    have ready : Reaches heap Homegrown later := by
      obtain ⟨counters, journal, first⟩ := reached
      exact ⟨counters, journal, first.trans onward⟩
    exact spanned.hull.mono (ready.spanned created).hull (reached.grows onward).ranges bounds
  · intro other along same
    have pristine := created_pristine created
    have alike : other.state.state.ranges = course.state.state.ranges := by
      ext range
      simp only [State.ranges, Set.mem_ofPred_eq, (along.accrued pristine).held,
        (reached.accrued pristine).held, same]
    exact spanned.hull.unique (alike ▸ (along.spanned created).hull)

/-! ## Two orders of publication -/

/-- The guarded classes with a stub behind their methods. -/
def flanked : List Blob.Edit :=
  guarded ++ [.addStub "s" 16]

set_option maxRecDepth 1000000 in
theorem flanked_bounds : (built? flanked).any (fun built =>
    let cell := afterCalls built.2 [.loadClass guardedB] { state := built.2.state }
    let last := afterCalls built.2 [.sweep "A", .loadClass guardedA] cell
    let other := afterCalls built.2 [.loadClass guardedA, .loadClass guardedB]
      { state := built.2.state }
    built.2.state.extent.bounds? == some (128, 148) &&
      cell.state.extent.bounds? == some (64, 148) && last.state.extent.bounds? == some (0, 148) &&
      last.state.phase? 1 == some .invalidated &&
      last.state.slots.map Slot.handle == other.state.slots.map Slot.handle) = true := by
  decide +kernel

theorem holds_handles : state.Holds codeId code ↔
    (state.slots.map Slot.handle)[codeId]? = some (some code) := by
  rw [List.getElem?_map, Option.map_eq_some_iff]
  rfl

/-- The last method is published first and goes out of use, and then the first one comes;
in another course they come the other way round. -/
theorem bounds_hull_flanked : ∃ (library : Library) (heap : Heap)
    (course later other : (service heap.image).Course),
    ((Heap.create library).run []).1 = .ok heap ∧ Reaches heap Homegrown course ∧
    ReflTransGen (Service.Step Homegrown) course later ∧ Reaches heap Homegrown other ∧
    heap.state.extent.bounds? = some (128, 148) ∧
    course.state.state.extent.bounds? = some (64, 148) ∧
    later.state.state.extent.bounds? = some (0, 148) ∧
    later.state.state.phase? 1 = some .invalidated ∧
    (∀ code, code ∈ publications other.past ↔ code ∈ publications later.past) ∧
    Hulled { heap with state := course.state.state } ∧
    Hulled { heap with state := later.state.state } ∧
    other.state.state.extent.bounds? = later.state.state.extent.bounds? := by
  obtain ⟨⟨library, heap⟩, built, computed⟩ := (Option.any_eq_true _ _).mp flanked_bounds
  obtain ⟨-, created⟩ := built_some built
  simp only [Bool.and_eq_true, beq_iff_eq] at computed
  obtain ⟨⟨⟨⟨first, second⟩, third⟩, gone⟩, handles⟩ := computed
  have native (calls : List Call) (plain : ∀ call ∈ calls, (Task.call call).code? = none)
      (call : Call) (among : call ∈ calls) (course : (service heap.image).Course)
      (_ : course.pending = []) : Homegrown course (.call call) := by
    intro code given
    rw [plain call among] at given
    cases given
  obtain ⟨course, onward, idle, state⟩ := calls_carried [.loadClass guardedB]
    (native _ (by simp [Task.code?])) { state := { state := heap.state } } rfl
  obtain ⟨later, steps, -, last⟩ := calls_carried [.sweep "A", .loadClass guardedA]
    (native _ (by simp [Task.code?])) course idle
  obtain ⟨other, along, -, final⟩ := calls_carried [.loadClass guardedA, .loadClass guardedB]
    (native _ (by simp [Task.code?])) { state := { state := heap.state } } rfl
  rw [state] at last
  rw [← state] at second
  rw [← last] at third gone handles
  rw [← final] at handles
  have reached : Reaches heap Homegrown course := ⟨{}, [], onward⟩
  have finished : Reaches heap Homegrown later := ⟨{}, [], onward.trans steps⟩
  have reordered : Reaches heap Homegrown other := ⟨{}, [], along⟩
  have pristine := created_pristine created
  have held (code : LinkedCode) : other.state.state.Holds code.codeId code ↔
      later.state.state.Holds code.codeId code := by
    rw [holds_handles, holds_handles, handles]
  have same : ∀ code, code ∈ publications other.past ↔ code ∈ publications later.past := by
    intro code
    rw [(reordered.accrued pristine).mem_publications, (finished.accrued pristine).mem_publications,
      held]
  obtain ⟨hulled, -, -⟩ := bounds_hull created reached
  obtain ⟨ended, -, alike⟩ := bounds_hull created finished
  exact ⟨library, heap, course, later, other, created, reached, steps, reordered, first, second,
    third, gone, same, hulled, ended, alike other reordered same⟩

end Precompiled.Heap
