import Precompiled.Proofs.Heap.Built
import Precompiled.Proofs.Heap.Claims
import Precompiled.Proofs.Heap.Loaders

/-! Ownership of linked code. As long as the engine does not call back, and nobody
publishes what another heap linked, all executable code of a class of the blob is
held by one live class: the one that is bound to it and sits in its metaspace
slot. -/
namespace Precompiled.Heap

variable {heap : Heap} {image : Image} {before after state : State} {library : Library}
  {journal : Journal} {course : (service heap.image).Course} {klass other : ClassRef}
  {codeId classId : Nat} {code : LinkedCode}

/-! ## Custody -/

/-- No call waits for the engine. -/
def Calm (course : (service image).Course) : Prop :=
  ∀ waiting ∈ course.pending, ∀ call, waiting.call ≠ .call call

/-- A call is begun only while no other one waits for the engine, and publishes
nothing but what the heap holds. -/
def Alone (course : (service image).Course) (task : Task) : Prop :=
  ∀ call, task = .call call → Calm course ∧
    ∀ code, call = .publish code → course.state.state.Holds code.codeId code

/-- A state without bindings and with nothing but stubs. -/
theorem fresh_kept (pristine : state.Pristine) (sized : state.loaders.length = image.classCount)
    (unbound : state.bindings = []) : Kept image state where
  orderly codeId slot found := (pristine codeId slot found).orderly
  sized := sized
  seated klass classId bound := by
    simp [State.binding?, unbound] at bound
  held codeId code runs := by
    obtain ⟨slot, found, executable, method⟩ := runs
    obtain ⟨-, held⟩ := executable_some.mp executable
    obtain ⟨-, isStub, -⟩ := (pristine codeId slot found).stub code held
    simp [isStub] at method

theorem Settles.frame {records : List Blob.CodeRecord} (settles : Settles image records before after) :
    after.loaders = before.loaders ∧ after.bindings = before.bindings := by
  induction settles with
  | refl => exact ⟨rfl, rfl⟩
  | tail _ step ih =>
    obtain ⟨record, -, stub, -, installed⟩ := step
    obtain ⟨loaders, -, bindings⟩ := installed.frame
    exact ⟨loaders.trans ih.1, bindings.trans ih.2⟩

/-- In a new heap nobody holds anything. -/
theorem created_kept (created : ((Heap.create library).run journal).1 = .ok heap) :
    Kept heap.image heap.state := by
  obtain ⟨stubs, -, settled⟩ := create_ok.mp created
  obtain ⟨settles, pristine⟩ := settleAll_settles (fun _ member => member) initial_pristine settled
  obtain ⟨loaders, bindings⟩ := settles.frame
  refine fresh_kept pristine ?_ bindings
  rw [loaders]
  exact List.length_replicate

/-- Calls that begin alone take turns, while walks go on aside. What survives the
collector, and what each admitted call that nobody disturbs restores, is restored
whenever no call is under way. -/
theorem orders_of_ensures {admits : (service image).Course → Task → Prop} {holds : State → Prop}
    (alone : ∀ course task, admits course task → Alone course task)
    (beside : ∀ before after, holds before → before.Beside after → holds after)
    (each : ∀ course call, admits course (.call call) → Ensures
      (fun state => holds state ∧ ∀ code, call = .publish code → state.Holds code.codeId code)
      (perform image call) fun _ => holds) :
    @Service.Orders _ _ (service image) admits (fun task => ∀ call, task ≠ .call call) undisturbed
      fun cell => holds cell.state where
  steady cell := .refl cell.state
  lasting early late := early.trans late
  drifted {before after} drifted := by
    have same : after.state = before.state := drifted
    show before.state.Beside after.state
    rw [same]
    exact .refl _
  kept held onward := beside _ _ held onward
  alone {course task} admitted called waiting among := by
    obtain ⟨call, rfl⟩ : ∃ call, task = .call call := by simpa using called
    exact (alone _ _ admitted call rfl).1 waiting among
  performed {course task} admitted called held known := by
    obtain ⟨call, rfl⟩ : ∃ call, task = .call call := by simpa using called
    have own := (alone _ _ admitted call rfl).2
    exact restores_lift (each course call admitted _ course.state ⟨held, own⟩)
  mild walk known cell := walk_mild walk known cell

theorem orders_of_consistent (consistent : image.Consistent) :
    @Service.Orders _ _ (service image) Alone (fun task => ∀ call, task ≠ .call call) undisturbed
      fun cell => Kept image cell.state :=
  orders_of_ensures (fun _ _ admitted => admitted) stable_custody.beside
    fun _ call _ => call_keeps consistent call

/-- Whenever no call is under way, custody holds. -/
theorem Reaches.kept (consistent : heap.image.Consistent)
    (created : ((Heap.create library).run journal).1 = .ok heap)
    (reached : Reaches heap Alone course) (calm : Calm course) : Kept heap.image course.state.state := by
  obtain ⟨counters, journal, reached⟩ := reached
  exact (Service.Reaches.resting (orders_of_consistent consistent) (created_kept created) reached).rest
    calm

/-! ## Ownership -/

/-- Who holds the linked code of a heap. -/
structure Ownership (heap : Heap) (course : (service heap.image).Course) : Prop where
  /-- The loader of a class, once set, never changes. -/
  loaders : (history heap course).Pairwise fun late old => old.KeepsLoaders late
  /-- A live class that is bound sits in its metaspace slot, and the loader of the
  class of the blob is set. -/
  seated : Calm course → ∀ klass classId, course.state.state.binding? klass = some classId →
    Seated heap.image course.state.state klass classId
  /-- No two live classes are bound to one class of the blob. -/
  alone : Calm course → ∀ klass other classId, course.state.state.binding? klass = some classId →
    course.state.state.binding? other = some classId → klass = other
  /-- What is resolved for a class, and is no stub, belongs to the class, and its
  holder is bound to it. -/
  held : Calm course → ∀ (codeId classId : Nat) (slot : Slot), heap.image.Assigns codeId classId →
    course.state.state.slots[codeId]? = some slot → slot.phase = .resolved →
      ∃ code, slot.handle = some code ∧ (code.isStub = false → code.classId = some classId ∧
        ∃ klass, code.holder = some klass ∧ course.state.state.binding? klass = some classId)
  /-- The executable methods of one class have one holder. -/
  shared : Calm course → ∀ first second classId code other, heap.image.Assigns first classId →
    heap.image.Assigns second classId → course.state.state.lookup first = some code →
    course.state.state.lookup second = some other → code.holder = other.holder

section Ownership

variable {spared : Nat → Prop}

/-- A metaspace slot has room for one live class. -/
theorem Seated.unique (first : Seated image state klass classId)
    (second : Seated image state other classId) : klass = other := by
  obtain ⟨entry, index, loader, known, slot, held, -⟩ := first
  obtain ⟨same, place, owner, found, there, taken, -⟩ := second
  obtain rfl : entry = same := Option.some.inj (known.symm.trans found)
  obtain rfl : index = place := Option.some.inj (slot.symm.trans there)
  exact Option.some.inj (held.symm.trans taken)

/-- Code that runs for a class is held by whoever is bound to it. -/
theorem Custody.holder (kept : Kept image state) (assigned : image.Assigns codeId classId)
    (runs : state.Runs codeId code) : code.classId = some classId ∧
      ∃ klass, code.holder = some klass ∧ state.binding? klass = some classId := by
  obtain ⟨own, klass, same, holder, ⟨record, found, owned⟩, bound⟩ := kept.held codeId code runs
  obtain ⟨claimed, there, mine⟩ := assigned
  obtain rfl : record = claimed := Option.some.inj (found.symm.trans there)
  obtain rfl : own = classId := Option.some.inj (owned.symm.trans mine)
  exact ⟨same, klass, holder, bound.resolve_right id⟩

theorem lookup_runs (found : state.lookup codeId = some code) : state.Runs codeId code := by
  obtain ⟨executable, method⟩ := Option.filter_eq_some_iff.mp found
  exact runs_iff.mpr ⟨executable, by simpa using method⟩

theorem ownership_of_kept (last : LoadersLast heap course.past course.state.state)
    (kept : Calm course → Kept heap.image course.state.state) : Ownership heap course where
  loaders := last
  seated calm := (kept calm).seated
  alone calm klass other classId first second :=
    ((kept calm).seated klass classId first).unique ((kept calm).seated other classId second)
  held calm codeId classId slot assigned found resolved := by
    obtain ⟨code, handle⟩ := ((kept calm).orderly codeId slot found).resolved resolved
    refine ⟨code, handle, fun method => ?_⟩
    have running : slot.executable = some code := executable_some.mpr ⟨resolved, handle⟩
    exact (kept calm).holder assigned ⟨slot, found, running, method⟩
  shared calm first second classId code other mine same found taken := by
    obtain ⟨-, klass, holder, bound⟩ := (kept calm).holder mine (lookup_runs found)
    obtain ⟨-, rival, keeper, joined⟩ := (kept calm).holder same (lookup_runs taken)
    obtain rfl : klass = rival :=
      ((kept calm).seated klass classId bound).unique ((kept calm).seated rival classId joined)
    exact holder.trans keeper.symm

end Ownership

section Built

variable {edits : List Blob.Edit} {settings : Blob.BuildSettings} {engineVersion name : String}
  {id : Nat} {options : LoadOptions} {loading : Journal}

/-- Linking a class of a built blob yields only code of the class. -/
theorem built_consistent (known : Blob.Edits.Known edits)
    (addressable : (Blob.Draft.describe settings engineVersion edits).Addressable)
    (loaded : ((Library.load (Blob.Draft.describe settings engineVersion edits).assemble name id
      options).run loading).1 = .ok library)
    (created : ((Heap.create library).run journal).1 = .ok heap) : heap.image.Consistent := by
  obtain ⟨assembled, stubs, prepared, -⟩ := built_prepared known addressable loaded created
  rw [Blob.Edits.describe_eq known] at addressable
  exact consistent_of_exclusive prepared (Blob.Edits.exclusive assembled addressable)

/-- In every heap of a built blob, whatever live classes come and go and whatever
the engine answers, as long as it does not call back in between, linked code is
held by the one live class that is bound to its class. -/
theorem ownership (known : Blob.Edits.Known edits)
    (addressable : (Blob.Draft.describe settings engineVersion edits).Addressable)
    (loaded : ((Library.load (Blob.Draft.describe settings engineVersion edits).assemble name id
      options).run loading).1 = .ok library)
    (created : ((Heap.create library).run journal).1 = .ok heap)
    (reached : Reaches heap Alone course) : Ownership heap course := by
  have consistent := built_consistent known addressable loaded created
  exact ownership_of_kept reached.loaders_last fun calm => reached.kept consistent created calm

end Built

/-! ## One class with one method -/

/-- A live class for the sample. -/
def sampleView : ClassView where
  klass := ⟨1, by decide⟩
  name := "A"
  loader := 0
  fingerprint := 7

/-- An engine with one method, which is all that it finds. -/
def lavish : (question : Question) → question.Answer
  | .engine (.findMethod _ _) => some { method := ⟨sampleView.klass.raw, sampleView.klass.nonnull⟩ }
  | other => blank other

def single : List Blob.Edit :=
  [.addClass "A" 7, .addMethod 0 { name := "m", signature := "()V" }]

/-- The cell of a heap after calls, carried out one after the other. -/
def afterCalls (heap : Heap) (calls : List Call) (cell : Cell) : Cell :=
  Service.carryOut lavish (service heap.image) (calls.map Task.call) cell

/-- The code of the first slot is executable and held by the live class of the sample. -/
def sampleRuns (cell : Cell) : Bool :=
  (cell.state.executable? 0).any fun code => code.holder = some sampleView.klass

section Rest

variable {start : (service heap.image).Course} {call : Call}

/-- Calls that publish nothing given can be carried out from any moment at rest. -/
theorem calls_carried {admits : (service heap.image).Course → Task → Prop} (calls : List Call)
    (admitted : ∀ call ∈ calls, ∀ course : (service heap.image).Course, course.pending = [] →
      admits course (.call call)) (start : (service heap.image).Course)
    (idle : start.pending = []) :
    ∃ finish, Relation.ReflTransGen (Service.Step admits) start finish ∧ finish.pending = [] ∧
      finish.state = afterCalls heap calls start.state := by
  refine Service.Course.carries_out lavish _ start idle fun task member => ?_
  obtain ⟨call, among, rfl⟩ := List.mem_map.mp member
  exact admitted call among

theorem calm_of_idle (idle : start.pending = []) : Calm start := fun waiting among => by
  simp [idle] at among

/-- A call that publishes nothing given may begin at rest. -/
theorem alone_of_idle (idle : start.pending = []) (plain : ∀ code, call ≠ .publish code) :
    Alone start (.call call) := by
  rintro own ⟨⟩
  exact ⟨calm_of_idle idle, fun code same => absurd same (plain code)⟩

end Rest

theorem single_known : Blob.Edits.Known single := by decide

theorem single_addressable : (Blob.Draft.describe {} "1" single).Addressable := by
  have fits : (Blob.Draft.describe {} "1" single).Fits :=
    Blob.Draft.fits_of_length (by decide +kernel)
  exact fits.addressable

set_option maxRecDepth 1000000 in
theorem single_linked : (built? single).any (fun built =>
    let linked := afterCalls built.2 [.loadClass sampleView] { state := built.2.state }
    ((built.2.image.record? 0).any fun owned => owned.classId = some 0) &&
      linked.state.binding? sampleView.klass = some 0 && sampleRuns linked) = true := by
  decide +kernel

/-- The class is linked and nothing is under way. -/
theorem single_at_rest : ∃ (library : Library) (heap : Heap) (course : (service heap.image).Course),
    ((Library.load (Blob.Draft.describe {} "1" single).assemble "lib" 0
      { verifyChecksum := false }).run []).1 = .ok library ∧
    ((Heap.create library).run []).1 = .ok heap ∧ Reaches heap Alone course ∧ Calm course ∧
    heap.image.Assigns 0 0 ∧ course.state.state.binding? sampleView.klass = some 0 ∧
    sampleRuns course.state = true := by
  obtain ⟨⟨library, heap⟩, built, linked⟩ := (Option.any_eq_true _ _).mp single_linked
  obtain ⟨loaded, created⟩ := built_some built
  simp only [Bool.and_eq_true, decide_eq_true_eq] at linked
  obtain ⟨⟨assigned, bound⟩, runs⟩ := linked
  obtain ⟨owned, found, own⟩ := (Option.any_eq_true _ _).mp assigned
  obtain ⟨course, onward, idle, state⟩ := calls_carried [.loadClass sampleView]
    (fun call among course idle => alone_of_idle idle fun code same => by simp [same] at among)
    { state := { state := heap.state } } rfl
  rw [← state] at bound runs
  exact ⟨library, heap, course, loaded, created, ⟨{}, [], onward⟩, calm_of_idle idle,
    ⟨owned, found, by simpa using own⟩, bound, runs⟩

theorem ownership_sample : ∃ (library : Library) (heap : Heap)
    (course : (service heap.image).Course),
    ((Library.load (Blob.Draft.describe {} "1" single).assemble "lib" 0
      { verifyChecksum := false }).run []).1 = .ok library ∧
    ((Heap.create library).run []).1 = .ok heap ∧ Reaches heap Alone course ∧ Calm course ∧
    heap.image.Assigns 0 0 ∧ course.state.state.binding? sampleView.klass = some 0 ∧
    sampleRuns course.state = true ∧ Ownership heap course := by
  obtain ⟨library, heap, course, loaded, created, reached, calm, assigned, bound, runs⟩ :=
    single_at_rest
  exact ⟨library, heap, course, loaded, created, reached, calm, assigned, bound, runs,
    ownership single_known single_addressable loaded created reached⟩

end Precompiled.Heap
