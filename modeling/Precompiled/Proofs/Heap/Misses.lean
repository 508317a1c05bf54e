import Precompiled.Proofs.Heap.LoadOrder
import Precompiled.Proofs.Heap.Provenance
import Precompiled.Proofs.Heap.Revocation
import Precompiled.Proofs.Heap.Stability

/-! What a failed load leaves behind. A class that the blob does not know, or whose place
is taken, changes nothing. A class in another shape takes code out of use: what depends
on it, and what of its own code was not linked yet. Nothing else is touched, and the
engine is told of executable code only. -/
namespace Precompiled.Heap

open Blob

variable {image : Image} {view : ClassView} {entry : ClassEntry} {before after : State}
  {asked : List Engine.Request} {miss : Miss} {codeId classId : Nat}

/-! ## Casting a class out -/

/-- A slot goes out of use when its class is cast out. -/
def Expelled (image : Image) (entry : ClassEntry) (state : State) (codeId : Nat) : Prop :=
  ∃ slot : Slot, state.slots[codeId]? = some slot ∧
    (image.Depends entry codeId ∧ slot.handle.any LinkedCode.isStub = false ∧
        slot.phase ≠ .invalidated ∨
      codeId ∈ image.codesOf entry.classId ∧ slot.phase = .unresolved)

/-- Of one slot, a sweep and retiring in a row make what is said at once. -/
theorem Casts.marked (casts : Casts image entry before asked after) :
    Marked (fun slot => { slot with phase := .invalidated }) (Expelled image entry before)
      before after := by
  obtain ⟨middle, report, withdrawal, marked⟩ := casts
  have frame : after = { before with slots := after.slots } := by
    rw [marked.frame, withdrawal.marked.frame]
  have each : ∀ codeId slot, before.slots[codeId]? = some slot →
      Expelled image entry before codeId ∧
          after.slots[codeId]? = some { slot with phase := .invalidated } ∨
        ¬Expelled image entry before codeId ∧ after.slots[codeId]? = some slot := by
    intro codeId slot found
    have expelled : Expelled image entry before codeId ↔
        image.Depends entry codeId ∧ slot.handle.any LinkedCode.isStub = false ∧
            slot.phase ≠ .invalidated ∨
          codeId ∈ image.codesOf entry.classId ∧ slot.phase = .unresolved := by
      simp [Expelled, found]
    rw [expelled]
    obtain ⟨phase, handle, admitted⟩ := slot
    rcases withdrawal.marked.found found with ⟨there, listed⟩ | ⟨there, listed⟩ <;>
      rcases marked.found there with ⟨last, own⟩ | ⟨last, own⟩ <;>
      cases isStub : handle.any LinkedCode.isStub <;> cases phase <;>
      simp [last, listed, own, isStub, Slot.invalidate_eq, Slot.retire_eq]
  refine ⟨frame, fun codeId member => ?_, fun codeId absent => ?_⟩
  · obtain ⟨slot, found, reason⟩ := member
    rcases each codeId slot found with ⟨-, there⟩ | ⟨spared, -⟩
    · rw [there, found, Option.map_some]
    · exact absurd ⟨slot, found, reason⟩ spared
  · cases found : before.slots[codeId]? with
    | none => exact marked.absent (withdrawal.marked.absent found)
    | some slot =>
      rcases each codeId slot found with ⟨member, -⟩ | ⟨-, there⟩
      · exact absurd member absent
      · exact there

/-- The engine is told of the executable code among that, once of each. -/
theorem Casts.told (orderly : before.Orderly) (casts : Casts image entry before asked after) :
    ∃ codes : List LinkedCode, asked = codes.map .deoptimize ∧
      (codes.map LinkedCode.codeId).Nodup ∧
      ∀ code, code ∈ codes ↔ before.executable? code.codeId = some code ∧
        Expelled image entry before code.codeId := by
  obtain ⟨middle, report, withdrawal, -⟩ := casts
  obtain ⟨codeIds, departed, -, told⟩ := withdrawal.booked.deoptimized
  have runs : ∀ codeId, before.phase? codeId = some .resolved → ∃ code : LinkedCode,
      before.executable? codeId = some code ∧ code.codeId = codeId ∧
        before.notice codeId = some (.deoptimize code) := by
    intro codeId resolved
    obtain ⟨slot, found, phase⟩ := Option.map_eq_some_iff.mp resolved
    obtain ⟨code, held⟩ := (orderly codeId slot found).resolved phase
    refine ⟨code, executable?_some.mpr ⟨slot, found, phase, held⟩,
      ((orderly codeId slot found).handle code held).2, ?_⟩
    simp [State.notice, found, held]
  have listed : ∀ codeId ∈ codeIds, before.phase? codeId = some .resolved :=
    fun codeId member => ((departed.mem codeId).mp member).1
  refine ⟨codeIds.filterMap before.executable?, ?_, ?_, fun code => ?_⟩
  · rw [told, List.map_filterMap]
    refine List.filterMap_congr fun codeId member => ?_
    obtain ⟨code, executable, -, notice⟩ := runs codeId (listed codeId member)
    rw [executable, notice, Option.map_some]
  · have same : (codeIds.filterMap before.executable?).map LinkedCode.codeId = codeIds := by
      rw [List.map_filterMap]
      refine (List.filterMap_congr fun codeId member => ?_).trans List.filterMap_some
      obtain ⟨code, executable, number, -⟩ := runs codeId (listed codeId member)
      rw [executable, Option.map_some, number]
    rw [same]
    exact departed.once
  · have expelled (executable : before.executable? code.codeId = some code) :
        code.codeId ∈ codeIds ↔ Expelled image entry before code.codeId := by
      rw [departed.mem, withdrawal.departs executable]
      obtain ⟨slot, found, phase, held⟩ := executable?_some.mp executable
      simp [Expelled, found, phase, held]
    constructor
    · intro member
      obtain ⟨codeId, among, executable⟩ := List.mem_filterMap.mp member
      obtain ⟨other, running, number, -⟩ := runs codeId (listed codeId among)
      obtain rfl := Option.some.inj (running.symm.trans executable)
      subst number
      exact ⟨executable, (expelled executable).mp among⟩
    · rintro ⟨executable, reason⟩
      exact List.mem_filterMap.mpr ⟨_, (expelled executable).mpr reason, executable⟩

/-! ## Failed loads -/

/-- A class that is refused its place leaves no trace, as long as there is such a
place. -/
theorem claimPlace_refused {index : Nat} {state : State}
    (slot : natural? entry.record.gotIndex = some index) (inside : index < state.metaspace.size)
    (refused : (claimPlace entry view state).1 = false) : (claimPlace entry view state).2 = state := by
  unfold claimPlace at refused ⊢
  simp only [slot] at refused ⊢
  split at refused
  · rename_i taken
    rw [if_pos taken]
  rename_i free
  rw [if_neg free]
  have same : (state.bindLoader entry.classId view.loader).2.metaspace = state.metaspace :=
    (bindLoader_frame entry.classId view.loader state).1
  split at refused
  · rename_i foreign
    rw [if_pos foreign]
    unfold State.bindLoader at foreign ⊢
    cases bound : state.loader? entry.classId with
    | some current => rfl
    | none => simp [bound] at foreign
  · exfalso
    have value : (Got.setIfNull index view.klass state.metaspace).1 = some view.klass := by
      cases held : state.metaspace.get index with
      | none => exact Got.setIfNull_stored view.klass held inside
      | some other =>
        obtain rfl : other = view.klass := by simpa [held] using free
        simp [Got.setIfNull, Option.join_eq_some_iff.mp held]
    simp [same, value] at refused

/-- Resolving a live class changes nothing but who sits where. -/
theorem admitted_frame (image : Image) (view : ClassView) (state : State) :
    (admitted image view state).2 = { state with
      loaders := (admitted image view state).2.loaders
      metaspace := (admitted image view state).2.metaspace
      bindings := (admitted image view state).2.bindings } := by
  unfold admitted bound
  split
  · rfl
  split
  · rfl
  next entry judged =>
  have frame := claimPlace_reseated entry view state
  generalize claimPlace entry view state = outcome at frame ⊢
  obtain ⟨claimed, later⟩ := outcome
  have only : later = { state with loaders := later.loaders, metaspace := later.metaspace } := frame
  cases claimed
  · change later = { state with
      loaders := later.loaders, metaspace := later.metaspace, bindings := later.bindings }
    rw [only]
  · change later.bind view.klass entry.classId = { state with
      loaders := later.loaders
      metaspace := later.metaspace
      bindings := (later.bind view.klass entry.classId).bindings }
    rw [only]
    rfl

/-- A class that is not of another shape is refused only if the blob does not know it. -/
theorem judge_minor (judged : judge image view = .error miss) (minor : isShapeMiss miss = false) :
    miss = .notFound := by
  unfold judge at judged
  split at judged
  · split at judged
    · obtain rfl := Except.error.inj judged
      cases minor
    split at judged
    · obtain rfl := Except.error.inj judged
      cases minor
    split at judged
    · obtain rfl := Except.error.inj judged
      cases minor
    cases judged
  · exact (Except.error.inj judged).symm

/-- A class that is refused changes nothing. -/
theorem admitted_refused (housed : image.Housed) (intact : Intact image before)
    (refused : admitted image view before = (.error miss, after)) :
    after = before ∧ (miss = .classloaderMismatch ∨ judge image view = .error miss) := by
  unfold admitted bound at refused
  split at refused
  · cases (Prod.mk.inj refused).1
  split at refused
  · next other judged =>
    obtain ⟨same, rfl⟩ := Prod.mk.inj refused
    obtain rfl := Except.error.inj same
    exact ⟨rfl, .inr judged⟩
  · next entry judged =>
    obtain ⟨index, slot, inside⟩ := housed entry (lookupClass_known (judge_ok.mp judged).found)
    have sized : before.metaspace.size = image.library.header.metaspaceSize.toNat :=
      intact.sized.metaspace.trans List.length_replicate
    have left : (claimPlace entry view before).1 = false → (claimPlace entry view before).2 = before :=
      claimPlace_refused slot (sized.symm ▸ inside)
    generalize claimPlace entry view before = outcome at refused left
    obtain ⟨claimed, later⟩ := outcome
    cases claimed with
    | true => cases (Prod.mk.inj refused).1
    | false =>
      obtain ⟨same, rfl⟩ := Prod.mk.inj refused
      obtain rfl := Except.error.inj same
      exact ⟨left rfl, .inl rfl⟩

/-- What a failed load leaves behind, where `casts` says what becomes of a heap when a
class of it is cast out. -/
inductive Missed (image : Image) (view : ClassView)
    (casts : ClassEntry → State → List Engine.Request → State → Prop) (before : State) :
    Miss → List Engine.Request → State → Prop where
  | notFound : Missed image view casts before .notFound [] before
  | classloaderMismatch : Missed image view casts before .classloaderMismatch [] before
  /-- The heap had been unusable for linking. -/
  | disabled (disabled : before.linkageDisabled = true) :
    Missed image view casts before .linkageDisabled [] before
  /-- The heap turned out to be unusable; by then the class had taken its place. -/
  | halted {asked : List Engine.Request} {after : State} (enabled : before.linkageDisabled = false)
    (disabled : after.linkageDisabled = true) (slots : after.slots = before.slots)
    (extent : after.extent = before.extent) :
    Missed image view casts before .linkageDisabled asked after
  /-- The blob knows the class in another shape. -/
  | cast {miss : Miss} {entry : ClassEntry} {asked : List Engine.Request} {after : State}
    (shape : isShapeMiss miss = true) (found : lookupClass image view.name = .ok (some entry))
    (expelled : casts entry before asked after) : Missed image view casts before miss asked after

/-- An engine that finds nothing. -/
def unanswered : Engine.Table :=
  fun request => blank (.engine request)

/-- Matching a class asks nothing, so it comes to the same with every engine. -/
theorem resolveClass_admits {cell last : Cell} {outcome : Except Miss ClassEntry}
    (ran : resolveClass image view cell = .done outcome last) :
    (outcome, last.state) = admitted image view cell.state := by
  have yields := resolveClass_yields unanswered image view cell
  rwa [Operation.finish, ran] at yields

/-- Whatever the engine answers, a miss leaves behind what its kind says. -/
theorem afterMiss_concludes {cell last : Cell}
    (minor : isShapeMiss miss = false → miss = .notFound ∨ miss = .classloaderMismatch)
    (shaped : isShapeMiss miss = true → ∃ entry, lookupClass image view.name = .ok (some entry))
    (concludes : (afterMiss image view miss cell).Concludes asked () last) :
    Missed image view (Casts image) cell.state miss asked last.state := by
  rcases afterMiss_casts unanswered image view miss cell with
    ⟨entry, shape, found, casts⟩ | ⟨other, same, silent⟩
  · obtain ⟨middle, report, withdrawal, retired⟩ := casts
    obtain ⟨rfl, ended⟩ := concludes.mute withdrawal.booked.plain
    have final : last = ((afterMiss image view miss).finish unanswered cell).2 := congrArg Prod.snd ended
    rw [final]
    exact .cast shape found ⟨middle, report, withdrawal, retired⟩
  · have plain : ∀ request ∈ (afterMiss image view miss cell).questions unanswered,
        Subsingleton (Engine.signature.Answer request) := by
      intro request member
      have none : (afterMiss image view miss cell).questions unanswered = [] := silent
      rw [none] at member
      cases member
    obtain ⟨rfl, ended⟩ := concludes.mute plain
    have final : last = ((afterMiss image view miss).finish unanswered cell).2 := congrArg Prod.snd ended
    have none : (afterMiss image view miss cell).questions unanswered = [] := silent
    rw [final, same, none]
    cases shape : isShapeMiss miss with
    | true =>
      obtain ⟨entry, found⟩ := shaped shape
      exact absurd found (other entry shape)
    | false =>
      rcases minor shape with rfl | rfl
      · exact .notFound
      · exact .classloaderMismatch

/-- Whatever the engine answers, a load that fails leaves behind what its miss says. -/
theorem loadClass_missed (housed : image.Housed) {cell last : Cell}
    (intact : Intact image cell.state)
    (concludes : (loadClass image view cell).Concludes asked (.error miss) last) :
    Missed image view (Casts image) cell.state miss asked last.state := by
  cases disabled : cell.state.linkageDisabled with
  | true =>
    rw [loadClass_disabled disabled] at concludes
    cases concludes
    exact .disabled disabled
  | false =>
    obtain ⟨outcome, middle, ran⟩ := resolveClass_silent image view cell
    rw [loadClass_enabled disabled ran] at concludes
    have matched := resolveClass_admits ran
    cases outcome with
    | error refusal =>
      obtain ⟨same, kind⟩ := admitted_refused housed intact matched.symm
      obtain ⟨early, _, after, late, missed, ended, rfl⟩ := concludes.parts
      cases ended
      rw [List.append_nil]
      rw [← same]
      refine afterMiss_concludes ?_ ?_ missed
      · intro minor
        rcases kind with mismatch | judged
        · exact .inr mismatch
        · exact .inl (judge_minor judged minor)
      · intro shape
        rcases kind with rfl | judged
        · cases shape
        · exact (judge_shape judged).mp shape
    | ok entry =>
      obtain ⟨early, linked, after, late, ensured, ended, rfl⟩ := concludes.parts
      obtain ⟨routed, disabling, -⟩ := ensureRoutines_concludes ensured
      have frame := admitted_frame image view cell.state
      rw [← matched] at frame
      dsimp only at frame
      cases linked with
      | true =>
        exfalso
        revert ended
        rw [if_pos rfl]
        cases image.library.methodsOf entry.record with
        | error error =>
          intro ended
          obtain ⟨_, _, _, _, -, impossible, -⟩ := ended.parts
          cases impossible
        | ok records =>
          intro ended
          obtain ⟨_, _, _, _, -, impossible, -⟩ := ended.parts
          cases impossible
      | false =>
        cases ended
        rw [List.append_nil]
        refine .halted disabled disabling ?_ ?_
        · rw [routed, frame]
        · rw [routed, frame]

/-! ## Built blobs -/

section Built

variable {edits : List Edit} {settings : BuildSettings} {engineVersion name : String} {id : Nat}
  {options : LoadOptions} {loading journal : Journal} {library : Library} {heap : Heap}
  {course : (service heap.image).Course} {owner : Nat} {method : MethodDraft}

/-- Code is held as a stub exactly if it was added as one. -/
def Kinded (edits : List Edit) (code : LinkedCode) : Prop :=
  code.isStub = true ↔ ∃ method, (Edits.codes edits)[code.codeId]? = some (none, method)

/-- A slot goes out of use when a class of the blob is presented in another shape. -/
inductive Doomed (edits : List Edit) (classId : Nat) (state : State) (codeId : Nat) : Prop where
  /-- The class lists the code as its dependent, and it is no stub. -/
  | dependent {dependent : UInt32} {owner : Nat} {method : MethodDraft}
    (listed : dependent ∈ Edits.dependents edits classId) (number : dependent.toNat = codeId)
    (added : (Edits.codes edits)[codeId]? = some (some owner, method))
    (alive : state.phase? codeId = some .unresolved ∨ state.phase? codeId = some .resolved)
  /-- The class owns the code, and it was not linked. -/
  | own {method : MethodDraft} (added : (Edits.codes edits)[codeId]? = some (some classId, method))
    (unresolved : state.phase? codeId = some .unresolved)

/-- What becomes of a heap when a class of the blob is presented in another shape. -/
structure Disowned (edits : List Edit) (entry : ClassEntry) (before : State)
    (asked : List Engine.Request) (after : State) : Prop where
  /-- The doomed slots are invalidated and keep what they hold. Other slots, the tables,
  the bindings, the loaders and the bounds are what they were. -/
  slots : Marked (fun slot => { slot with phase := .invalidated })
    (Doomed edits entry.classId before) before after
  /-- The engine is asked to leave the executable code among the doomed, and nothing
  else. -/
  told : ∃ codes : List LinkedCode, asked = codes.map .deoptimize ∧
    (codes.map LinkedCode.codeId).Nodup ∧
    ∀ code, code ∈ codes ↔ before.executable? code.codeId = some code ∧
      Doomed edits entry.classId before code.codeId

theorem Missed.mono {casts others : ClassEntry → State → List Engine.Request → State → Prop}
    (missed : Missed image view casts before miss asked after)
    (implies : ∀ entry asked after, lookupClass image view.name = .ok (some entry) →
      casts entry before asked after → others entry before asked after) :
    Missed image view others before miss asked after := by
  cases missed with
  | notFound => exact .notFound
  | classloaderMismatch => exact .classloaderMismatch
  | disabled disabled => exact .disabled disabled
  | halted enabled disabled slots extent => exact .halted enabled disabled slots extent
  | cast shape found expelled => exact .cast shape found (implies _ _ _ found expelled)

variable (known : Edits.Known edits) (fits : (Draft.describe settings engineVersion edits).Fits)
  (loaded : ((Library.load (Draft.describe settings engineVersion edits).assemble name id
    options).run loading).1 = .ok library)
  (created : ((Heap.create library).run journal).1 = .ok heap)
include known fits loaded created

/-- The code of a class is what was added to the class. -/
theorem built_codesOf : codeId ∈ heap.image.codesOf classId ↔
    ∃ method, (Edits.codes edits)[codeId]? = some (some classId, method) := by
  obtain ⟨assembled, stubs, prepared, -⟩ := built_prepared known fits.addressable loaded created
  obtain ⟨-, sound, -⟩ := prepare_claims prepared
  rw [Edits.describe_eq known] at fits
  constructor
  · intro member
    obtain ⟨owned, found, own⟩ := assigned_of_codesOf member
    obtain ⟨claimed, slot⟩ := sound codeId owned found
    have listed := Edits.claim_owned assembled fits.addressable claimed slot
    obtain ⟨⟨number, method⟩, among, rfl⟩ := List.mem_map.mp listed
    rw [own] at among
    exact ⟨method, Edits.mem_owned.mp among⟩
  · rintro ⟨method, added⟩
    exact mem_codesOf (Edits.owner_recorded known fits assembled prepared added)

/-- What depends on a class is what was added as its dependents. -/
theorem built_depends (small : ∀ dependent ∈ edits.filterMap Edit.dependent?,
      dependent.2.toNat < 2 ^ 31) (present : heap.image.classEntry? entry.classId = some entry) :
    heap.image.Depends entry codeId ↔
      ∃ dependent ∈ Edits.dependents edits entry.classId, dependent.toNat = codeId := by
  obtain ⟨assembled, -, -, -⟩ := built_prepared known fits.addressable loaded created
  rw [Edits.describe_eq known] at fits
  obtain ⟨inside, read⟩ := classEntry_read present
  rw [Image.classCount, Draft.classCount_eq assembled fits] at inside
  have count : (Edits.summary settings engineVersion edits).classes.length =
      (Edits.classes edits).length := by simp [Edits.summary]
  have found : (Edits.summary settings engineVersion edits).classes[entry.classId]? = some _ :=
    Edits.summary_class (List.getElem?_eq_getElem (count ▸ inside))
  have record := Except.ok.inj (read.symm.trans (Draft.classRecord_read assembled found))
  have few : ∀ dependent ∈ Edits.dependents edits entry.classId, dependent.toNat < 2 ^ 31 := by
    intro dependent member
    exact small _ (Edits.mem_dependents member)
  have listed := Draft.dependentsOf_read assembled fits found few
  rw [Image.Depends, record, listed]
  simp [Edits.classDraft]

/-- What slots hold is a stub exactly in the slots of code that was added as stubs. -/
theorem Reaches.kinded (reached : Reaches heap Native course) :
    course.state.state.Every (Kinded edits) := by
  have consistent := built_consistent known fits.addressable loaded created
  have codes (codeId classId : Nat) : codeId ∈ heap.image.codesOf classId ↔ _ :=
    built_codesOf known fits loaded created
  obtain ⟨assembled, stubs, prepared, settled⟩ :=
    built_prepared known fits.addressable loaded created
  rw [Edits.describe_eq known] at fits
  have pristine := created_pristine created
  have settles := (settleAll_settles (fun _ member => member) initial_pristine settled).1
  have listed := prepare_stubs prepared
  have read := Draft.stubRecords_read assembled fits
  obtain rfl := Except.ok.inj (listed.symm.trans read)
  refine reached.every ?_ pristine (settles.every ?_ initial_every)
  · intro entry holder code linked
    have plain : code.isStub = false := by
      obtain ⟨records, record, detail, name, live, -, -, -, -, placed⟩ := linked.placed
      obtain ⟨offset, start, -, rfl⟩ := place_ok.mp placed
      rfl
    obtain ⟨method, added⟩ := (codes _ _).mp (mem_codesOf (consistent entry holder code linked))
    simp [Kinded, plain, added]
  · intro record member stub coded
    obtain ⟨codeId, among, code, found, rfl⟩ := Draft.mem_codeRecords.mp member
    have number : stub.codeId = codeId :=
      (stubCode_codeId coded).trans (Draft.record_codeId fits found)
    obtain ⟨⟨other, method⟩, owned, same⟩ := List.mem_map.mp among
    obtain rfl : other = codeId := same
    have added := Edits.mem_owned.mp owned
    rw [← number] at added
    exact ⟨fun _ => ⟨method, added⟩, fun _ => stubCode_isStub coded⟩

/-- The slot of a stub is never free. -/
theorem Reaches.settled (reached : Reaches heap Native course)
    (added : (Edits.codes edits)[codeId]? = some (none, method)) :
    ∃ code, course.state.state.Holds codeId code := by
  obtain ⟨assembled, stubs, prepared, settled⟩ :=
    built_prepared known fits.addressable loaded created
  rw [Edits.describe_eq known] at fits
  have chronicle := reached.chronicle (created_pristine created)
  have listed := prepare_stubs prepared
  have read := Draft.stubRecords_read assembled fits
  obtain rfl := Except.ok.inj (listed.symm.trans read)
  have found : (Edits.summary settings engineVersion edits).codes[codeId]? = some _ :=
    Edits.summary_code added
  have mine : codeId ∈ (Edits.owned edits none).map Prod.fst :=
    List.mem_map.mpr ⟨(codeId, method), Edits.mem_owned.mpr added, rfl⟩
  have member := Draft.mem_codeRecords.mpr ⟨codeId, mine, _, found, rfl⟩
  obtain ⟨stub, coded⟩ := settleAll_coded settled member
  have number : stub.codeId = codeId := (stubCode_codeId coded).trans (Draft.record_codeId fits found)
  have inside : stub.codeId < heap.image.initialState.slots.length := by
    rw [number, Image.initialState, List.length_replicate, Image.slotCount,
      Draft.slotCount_eq assembled fits]
    exact (List.getElem?_eq_some_iff.mp found).1
  obtain ⟨code, holds⟩ := settleAll_holds initial_pristine settled member coded inside
  have grows : heap.state.Grows course.state.state :=
    chronicle.since heap.state (by simp [earlier])
  exact ⟨code, number ▸ grows.holds holds⟩

/-- What the heap finds out about a slot when a class is cast out is what was said when
the blob was built. -/
theorem Reaches.expelled (small : ∀ dependent ∈ edits.filterMap Edit.dependent?,
      dependent.2.toNat < 2 ^ 31) (reached : Reaches heap Native course)
    (present : heap.image.classEntry? entry.classId = some entry) :
    Expelled heap.image entry course.state.state codeId ↔
      Doomed edits entry.classId course.state.state codeId := by
  have intact := reached.intact created
  have kinded := reached.kinded known fits loaded created
  have depends : heap.image.Depends entry codeId ↔ _ :=
    built_depends known fits loaded created small present
  have codes : codeId ∈ heap.image.codesOf entry.classId ↔ _ :=
    built_codesOf known fits loaded created
  have taken (method : MethodDraft) (added : (Edits.codes edits)[codeId]? = some (none, method)) :
      ∃ code, course.state.state.Holds codeId code :=
    reached.settled known fits loaded created added
  have count : heap.image.slotCount = (Edits.codes edits).length := by
    obtain ⟨assembled, -, -, -⟩ := built_prepared known fits.addressable loaded created
    rw [Edits.describe_eq known] at fits
    rw [Image.slotCount, Draft.slotCount_eq assembled fits]
    simp [Edits.summary]
  constructor
  · rintro ⟨slot, found, ⟨listed, method, alive⟩ | ⟨own, unresolved⟩⟩
    · obtain ⟨dependent, among, number⟩ := depends.mp listed
      have phase : course.state.state.phase? codeId = some slot.phase := by
        simp [State.phase?, found]
      have alive : course.state.state.phase? codeId = some .unresolved ∨
          course.state.state.phase? codeId = some .resolved := by
        rw [phase]
        cases seen : slot.phase with
        | unresolved => exact .inl rfl
        | resolved => exact .inr rfl
        | invalidated => exact absurd seen alive
      have inside : codeId < (Edits.codes edits).length := by
        have bound := (List.getElem?_eq_some_iff.mp found).1
        rwa [intact.sized.slots, Image.initialState, List.length_replicate, count] at bound
      rcases added : (Edits.codes edits)[codeId]? with _ | ⟨_ | owner, draft⟩
      · exact absurd inside (Nat.not_lt.mpr (List.getElem?_eq_none_iff.mp added))
      · -- the slot of a stub holds a stub
        obtain ⟨stub, other, there, held⟩ := taken draft added
        obtain rfl : other = slot := Option.some.inj (there.symm.trans found)
        have number := ((intact.orderly codeId other found).handle stub held).2
        have isStub : stub.isStub = true :=
          (kinded codeId stub ⟨other, found, held⟩).mpr ⟨draft, number ▸ added⟩
        simp [held, isStub] at method
      · exact .dependent among number added alive
    · obtain ⟨draft, added⟩ := codes.mp own
      exact .own added (by simp [State.phase?, found, unresolved])
  · intro doomed
    cases doomed with
    | dependent listed number added alive =>
      obtain ⟨slot, found, alive⟩ : ∃ slot : Slot, course.state.state.slots[codeId]? = some slot ∧
          slot.phase ≠ .invalidated := by
        rcases alive with phase | phase <;>
          obtain ⟨slot, found, seen⟩ := Option.map_eq_some_iff.mp phase <;>
          exact ⟨slot, found, by simp [seen]⟩
      refine ⟨slot, found, .inl ⟨depends.mpr ⟨_, listed, number⟩, ?_, alive⟩⟩
      rw [Option.any_eq_false]
      intro code held
      refine Bool.eq_false_iff.mpr fun isStub => ?_
      have own := ((intact.orderly codeId slot found).handle code held).2
      obtain ⟨draft, rival⟩ := (kinded codeId code ⟨slot, found, held⟩).mp isStub
      rw [own, added] at rival
      cases rival
    | own added unresolved =>
      obtain ⟨slot, found, phase⟩ := Option.map_eq_some_iff.mp unresolved
      exact ⟨slot, found, .inr ⟨codes.mpr ⟨_, added⟩, phase⟩⟩

/-- When a live class cannot be loaded into the heap of a built blob, the engine does not
call back, and nobody ever published what another heap linked, the miss that is reported
says all that became of the heap. -/
theorem misses_contained (small : ∀ dependent ∈ edits.filterMap Edit.dependent?,
      dependent.2.toNat < 2 ^ 31) (reached : Reaches heap Native course) {last : Cell}
    (concludes : (loadClass heap.image view course.state).Concludes asked (.error miss) last) :
    Missed heap.image view (Disowned edits) course.state.state miss asked last.state := by
  have regular := built_regular known fits loaded created
  have intact := reached.intact created
  refine (loadClass_missed regular.housed intact concludes).mono ?_
  intro entry asked after found casts
  have expelled (codeId : Nat) : Expelled heap.image entry course.state.state codeId ↔ _ :=
    reached.expelled known fits loaded created small (lookupClass_known found)
  obtain ⟨codes, told, once, listed⟩ := casts.told intact.orderly
  refine ⟨casts.marked.congr expelled, codes, told, once, fun code => ?_⟩
  rw [listed, expelled]

end Built

/-! ## A class in another shape -/

/-- A class on which the only method of another one depends. -/
def guarded : List Edit :=
  [.addClass "A" 7, .addClass "B" 8, .addMethod 0 { name := "m", signature := "()V" },
   .addMethod 1 { name := "n", signature := "()V" }, .addDependent 0 1]

/-- The class on which a method depends, with another shape, and the class of the
method. -/
def reshapedA : ClassView where
  klass := liveA
  name := "A"
  loader := 1
  fingerprint := 9

def guardedB : ClassView where
  klass := liveB
  name := "B"
  loader := 1
  fingerprint := 8

set_option maxRecDepth 1000000 in
theorem guarded_linked : (built? guarded).any (fun built =>
    let cell := afterCalls built.2 [.loadClass guardedB] { state := built.2.state }
    let last := ((loadClass built.2.image reshapedA).finish unanswered cell)
    (cell.state.phase? 0 == some .unresolved && cell.state.phase? 1 == some .resolved) &&
      (last.1 matches .error .fingerprintMismatch) &&
      (((loadClass built.2.image reshapedA).asked unanswered cell).length == 1) &&
      (last.2.state.phase? 0 == some .invalidated && last.2.state.phase? 1 == some .invalidated)) =
        true := by
  decide +kernel

/-- A class is presented in another shape: its method was not linked, and what depends
on it was. -/
theorem misses_contained_guarded : ∃ (library : Library) (heap : Heap)
    (course : (service heap.image).Course) (asked : List Engine.Request) (last : Cell),
    ((Library.load (Draft.describe {} "1" guarded).assemble "lib" 0
      { verifyChecksum := false }).run []).1 = .ok library ∧
    ((Heap.create library).run []).1 = .ok heap ∧ Reaches heap Native course ∧
    (loadClass heap.image reshapedA course.state).Concludes asked (.error .fingerprintMismatch)
      last ∧
    course.state.state.phase? 0 = some .unresolved ∧ course.state.state.phase? 1 = some .resolved ∧
    asked.length = 1 ∧ last.state.phase? 0 = some .invalidated ∧
    last.state.phase? 1 = some .invalidated ∧
    Missed heap.image reshapedA (Disowned guarded) course.state.state .fingerprintMismatch asked
      last.state := by
  obtain ⟨⟨library, heap⟩, built, linked⟩ := (Option.any_eq_true _ _).mp guarded_linked
  obtain ⟨loaded, created⟩ := built_some built
  simp only [Bool.and_eq_true, beq_iff_eq] at linked
  obtain ⟨⟨⟨⟨free, runs⟩, refused⟩, told⟩, first, second⟩ := linked
  have known : Edits.Known guarded := by decide
  have fits : (Draft.describe {} "1" guarded).Fits := Draft.fits_of_length (by decide +kernel)
  have native (call : Call) (among : call ∈ [.loadClass guardedB])
      (course : (service heap.image).Course) (_ : course.pending = []) : Native course (.call call) :=
    fun code same => by simp [Task.call.inj same] at among
  obtain ⟨course, onward, -, state⟩ := calls_carried [.loadClass guardedB] native
    { state := { state := heap.state } } rfl
  have reached : Reaches heap Native course := ⟨{}, [], onward⟩
  rw [← state] at free runs refused told first second
  have concludes := Dialogue.Concludes.of_table unanswered (loadClass heap.image reshapedA course.state)
  have miss : ((loadClass heap.image reshapedA course.state).conclude unanswered).1 =
      .error .fingerprintMismatch := by
    split at refused
    · assumption
    · cases refused
  rw [miss] at concludes
  exact ⟨library, heap, course, _, _, loaded, created, reached, concludes, free, runs, told, first,
    second, misses_contained known fits loaded created (by decide) reached concludes⟩

end Precompiled.Heap
