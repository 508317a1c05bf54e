import Precompiled.Proofs.Heap.Lifecycle
import Precompiled.Proofs.Heap.SweepReports

/-! Four ways to go through the executable code of a heap: from the first to the next
and on, by showing methods to a visitor, by looking up each code id, and the list of the
methods. They agree because code says of itself in which slot it is. A caller who asks
for the next code after the one just seen goes on from there, so a handle with another
code id would make it miss code or meet the same code for ever. -/
namespace Precompiled.Heap

variable {heap : Heap} {image : Image} {state : State} {codeId : Nat} {slot : Slot}
  {code : LinkedCode} {codes others : List LinkedCode} {from? : Option LinkedCode}

/-! ## The executable code in slot order -/

/-- The code of the resolved slots, stubs included. -/
def State.running (state : State) : List LinkedCode :=
  state.slots.filterMap Slot.executable

/-- If every resolved slot has a handle, the code of the resolved slots is what they
hold. -/
theorem executables_held {slots : List Slot}
    (held : ∀ slot ∈ slots, slot.phase = .resolved → ∃ code, slot.handle = some code) :
    (slots.filterMap Slot.executable).map some =
      (slots.filter fun slot => slot.phase = .resolved).map Slot.handle := by
  induction slots with
  | nil => rfl
  | cons slot rest ih =>
    obtain ⟨own, others⟩ := List.forall_mem_cons.mp held
    by_cases resolved : slot.phase = .resolved
    · obtain ⟨code, there⟩ := own resolved
      rw [List.filterMap_cons_some (executable_some.mpr ⟨resolved, there⟩),
        List.filter_cons_of_pos (by simpa using resolved), List.map_cons, List.map_cons,
        ih others, there]
    · have idle : slot.executable = none := if_neg resolved
      rw [List.filterMap_cons_none idle,
        List.filter_cons_of_neg (by simpa using resolved), ih others]

/-! ## Looking up every code id -/

/-- Who asks for the items at all indices, and at further ones, is given each item once
and in order. -/
theorem filterMap_range {α β : Type} (items : List α) (view : α → Option β) {count : Nat}
    (enough : items.length ≤ count) :
    (List.range count).filterMap (fun index => items[index]?.bind view) =
      items.filterMap view := by
  induction items generalizing count with
  | nil => simp
  | cons item rest ih =>
    obtain ⟨fewer, rfl⟩ := Nat.exists_eq_succ_of_ne_zero (Nat.ne_zero_of_lt enough)
    have later := ih (Nat.le_of_succ_le_succ enough)
    rw [List.range_succ_eq_map, List.filterMap_cons, List.filterMap_map, List.filterMap_cons]
    simp only [Function.comp_def, Nat.succ_eq_add_one, List.getElem?_cons_succ, later,
      List.getElem?_cons_zero, Option.bind_some]

theorem State.running_range (state : State) {count : Nat} (enough : state.slots.length ≤ count) :
    (List.range count).filterMap state.executable? = state.running :=
  filterMap_range state.slots Slot.executable enough

/-- Looking up every code id finds the methods among the executable code. -/
theorem State.lookup_range (state : State) {count : Nat} (enough : state.slots.length ≤ count) :
    (List.range count).filterMap state.lookup = state.running.filter fun code => !code.isStub := by
  rw [← state.running_range enough, List.filter_filterMap]
  rfl

theorem State.Orderly.increasing (orderly : state.Orderly) :
    state.running.Pairwise fun first second => first.codeId < second.codeId := by
  rw [← state.running_range (Nat.le_refl _), List.pairwise_filterMap]
  refine List.pairwise_lt_range.imp fun less code found other there => ?_
  rw [orderly.executable_own found, orderly.executable_own there]
  exact less

/-! ## From the first to the next -/

/-- What a caller meets who stands at some code, or has found none, and asks for the next
code after the one just met until there is none. -/
inductive State.Walks (state : State) : Option LinkedCode → List LinkedCode → Prop where
  | stop : Walks state none []
  | step {code : LinkedCode} {codes : List LinkedCode}
      (onward : Walks state (state.next code.codeId) codes) :
    Walks state (some code) (code :: codes)

theorem State.Walks.unique (walks : state.Walks from? codes) (again : state.Walks from? others) :
    codes = others := by
  induction walks generalizing others with
  | stop =>
    cases again
    rfl
  | @step code codes onward ih =>
    cases again with
    | step further => rw [ih further]

/-- A walk that gives up after some steps meets everything if it does not give up before
the end. -/
theorem State.Walks.walkFrom (walks : state.Walks from? codes) {fuel : Nat}
    (enough : codes.length ≤ fuel) : state.walkFrom fuel from? = codes := by
  induction walks generalizing fuel with
  | stop => cases fuel <;> rfl
  | @step code codes onward ih =>
    obtain ⟨left, rfl⟩ := Nat.exists_eq_succ_of_ne_zero (Nat.ne_zero_of_lt enough)
    rw [State.walkFrom, ih (Nat.le_of_succ_le_succ enough)]

/-- From any slot on a walk meets the code of the slots that are left. -/
theorem State.Orderly.walks_from (orderly : state.Orderly) (start : Nat) :
    state.Walks (state.nextFrom start)
      ((state.slots.drop start).filterMap Slot.executable) := by
  obtain ⟨rest, left⟩ : ∃ rest, state.slots.drop start = rest := ⟨_, rfl⟩
  -- On the slots that are left; each round moves on by one slot.
  induction rest generalizing start with
  | nil =>
    rw [State.nextFrom, left]
    exact .stop
  | cons slot rest ih =>
    have found : state.slots[start]? = some slot := by
      rw [← List.head?_drop, left, List.head?_cons]
    have onward : state.slots.drop (start + 1) = rest := by
      rw [← List.drop_drop, left, List.drop_one, List.tail_cons]
    have later := ih (start + 1) onward
    rw [onward] at later
    cases running : slot.executable with
    | none =>
      have skipped : state.nextFrom start = state.nextFrom (start + 1) := by
        rw [State.nextFrom, State.nextFrom, left, onward, List.findSome?_cons, running]
      rw [left, List.filterMap_cons_none running, skipped]
      exact later
    | some code =>
      have met : state.nextFrom start = some code := by
        rw [State.nextFrom, left, List.findSome?_cons, running]
      have there : state.executable? start = some code := by
        rw [State.executable?, found, Option.bind_some, running]
      have own := orderly.executable_own there
      rw [left, List.filterMap_cons_some running, met]
      refine .step ?_
      rw [State.next, own]
      exact later

/-! ## Showing methods -/

/-- A visitor that leaves the heap alone is shown what there is. -/
theorem show_concludes {question : Question} {cell after : Cell} {asked : List Question}
    {answer : question.Answer} :
    (Action.ask (S := surroundings) question cell).Concludes asked answer after ↔
      asked = [question] ∧ after = cell := by
  constructor
  · rintro (_ | ⟨_, ⟨⟩⟩)
    exact ⟨rfl, rfl⟩
  · rintro ⟨rfl, rfl⟩
    exact .ask answer (.done answer _)

/-- On a walk it is shown what there is at each stop. -/
theorem visitEach_concludes {ι α : Type} {look : State → ι → Option α}
    {visit : α → Action surroundings Cell Unit} {shown : α → List Question} {cell after : Cell}
    (visits : ∀ found asked result after, (visit found cell).Concludes asked result after ↔
      asked = shown found ∧ after = cell)
    {stops : List ι} {asked : List Question} {result : Unit} :
    (visitEach look visit stops cell).Concludes asked result after ↔
      asked = (stops.filterMap (look cell.state)).flatMap shown ∧ after = cell := by
  induction stops generalizing asked with
  | nil =>
    constructor
    · rintro ⟨⟩
      exact ⟨rfl, rfl⟩
    · rintro ⟨rfl, rfl⟩
      exact .done () _
  | cons stop rest ih =>
    simp only [visitEach, Action.bind_apply, Action.read_apply, Dialogue.bind_done]
    cases found : look cell.state stop with
    | none =>
      rw [List.filterMap_cons_none found]
      exact ih
    | some value =>
      rw [List.filterMap_cons_some found, List.flatMap_cons]
      refine Dialogue.Concludes.bind_iff.trans ⟨?_, ?_⟩
      · rintro ⟨first, _, middle, second, early, late, rfl⟩
        obtain ⟨rfl, rfl⟩ := (visits _ _ _ _).mp early
        obtain ⟨rfl, rfl⟩ := ih.mp late
        exact ⟨rfl, rfl⟩
      · rintro ⟨rfl, rfl⟩
        exact ⟨_, (), _, _, (visits _ _ _ _).mpr ⟨rfl, rfl⟩, ih.mpr ⟨rfl, rfl⟩, rfl⟩

/-- On a walk over the methods it is shown the executable ones, in slot order. -/
theorem visitMethods_concludes {visit : LinkedCode → Action surroundings Cell Unit}
    {shown : LinkedCode → List Question} {cell after : Cell}
    (visits : ∀ code asked result after, (visit code cell).Concludes asked result after ↔
      asked = shown code ∧ after = cell) {asked : List Question} {result : Unit} :
    (visitMethods visit cell).Concludes asked result after ↔
      asked = cell.state.aliveMethods.flatMap shown ∧ after = cell := by
  have alive : (List.range cell.state.slots.length).filterMap cell.state.lookup =
      cell.state.aliveMethods := cell.state.lookup_range (Nat.le_refl _)
  rw [← alive]
  exact visitEach_concludes visits

theorem methods_conclude {cell after : Cell} {asked : List Question} {result : Unit} :
    (Task.perform image .methods cell).Concludes asked result after ↔
      asked = (cell.state.running.filter fun code => !code.isStub).map .method ∧ after = cell := by
  rw [List.map_eq_flatMap]
  exact visitMethods_concludes fun _ _ _ _ => show_concludes

/-! ## All of them agree -/

/-- The ways to go through the executable code of a heap lead to the same code. -/
structure Agreement (image : Image) (state : State) : Prop where
  /-- Asking for the first code and then for the next comes to an end, and to one only. -/
  walked : ∀ codes, state.Walks state.first codes ↔ codes = state.running
  /-- Nothing is missed by who gives up after one step more than there are slots. -/
  walk : state.walk = state.running
  /-- What is met is what the resolved slots hold, in their order. -/
  handles : state.running.map some =
    (state.slots.filter fun slot => slot.phase = .resolved).map Slot.handle
  own : ∀ (codeId : Nat) (slot : Slot) (code : LinkedCode), state.slots[codeId]? = some slot →
    slot.phase = .resolved → slot.handle = some code → code.codeId = codeId
  increasing : state.running.Pairwise fun first second => first.codeId < second.codeId
  alive : state.aliveMethods = state.running.filter fun code => !code.isStub
  /-- What a visitor is shown who leaves the heap alone. -/
  shown : ∀ cell : Cell, cell.state = state → ∀ asked result after,
    (Task.perform image .methods cell).Concludes asked result after ↔
      asked = (state.running.filter fun code => !code.isStub).map .method ∧ after = cell
  /-- What is found by looking up all code ids. -/
  looked : ∀ count, state.slots.length ≤ count →
    (List.range count).filterMap state.lookup = state.running.filter fun code => !code.isStub

theorem State.Orderly.agreement (orderly : state.Orderly) : Agreement image state where
  walked codes := by
    have walks : state.Walks state.first state.running := orderly.walks_from 0
    constructor
    · exact fun again => again.unique walks
    · rintro rfl
      exact walks
  walk := by
    have walks : state.Walks state.first state.running := orderly.walks_from 0
    exact walks.walkFrom (Nat.le_succ_of_le (List.length_filterMap_le _ _))
  handles := by
    refine executables_held fun slot among resolved => ?_
    obtain ⟨codeId, inside, rfl⟩ := List.getElem_of_mem among
    exact (orderly codeId _ (List.getElem?_eq_getElem inside)).resolved resolved
  own codeId slot code found _ held := ((orderly codeId slot found).handle code held).2
  increasing := orderly.increasing
  alive := rfl
  shown := by
    rintro cell rfl asked result after
    exact methods_conclude
  looked _ enough := state.lookup_range enough

/-- In every state that a heap comes to, whatever is published and whoever calls back, the
ways to go through its code agree. -/
theorem traversals_agree {library : Library} {journal : Journal}
    {admits : (service heap.image).Course → Task → Prop} {course : (service heap.image).Course}
    (created : ((Heap.create library).run journal).1 = .ok heap)
    (reached : Reaches heap admits course) : Agreement heap.image course.state.state :=
  (reached.chronicle (created_pristine created)).orderly.agreement

set_option maxRecDepth 1000000 in
theorem crowded_running : (built? crowded).any (fun built =>
    let state := (afterCalls built.2 [.loadClass guardedB] { state := built.2.state }).state
    state.slots.map Slot.phase == [.unresolved, .resolved, .resolved] &&
      state.walk.map LinkedCode.codeId == [1, 2] &&
      state.aliveMethods.map LinkedCode.codeId == [1]) = true := by
  decide +kernel

theorem traversals_agree_crowded : ∃ (library : Library) (heap : Heap)
    (course : (service heap.image).Course),
    ((Heap.create library).run []).1 = .ok heap ∧ Reaches heap (fun _ _ => True) course ∧
    course.state.state.slots.map Slot.phase = [.unresolved, .resolved, .resolved] ∧
    course.state.state.walk.map LinkedCode.codeId = [1, 2] ∧
    course.state.state.aliveMethods.map LinkedCode.codeId = [1] ∧
    Agreement heap.image course.state.state := by
  obtain ⟨⟨library, heap⟩, built, counted⟩ := (Option.any_eq_true _ _).mp crowded_running
  obtain ⟨-, created⟩ := built_some built
  simp only [Bool.and_eq_true, beq_iff_eq] at counted
  obtain ⟨course, onward, -, state⟩ := @calls_carried heap (fun _ _ => True)
    [.loadClass guardedB] (fun _ _ _ _ => trivial) { state := { state := heap.state } } rfl
  have reached : Reaches heap (fun _ _ => True) course := ⟨{}, [], onward⟩
  rw [← state] at counted
  obtain ⟨⟨phases, walk⟩, alive⟩ := counted
  exact ⟨library, heap, course, created, reached, phases, walk, alive,
    traversals_agree created reached⟩

end Precompiled.Heap
