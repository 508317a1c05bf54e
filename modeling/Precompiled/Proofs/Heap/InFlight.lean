import Precompiled.Proofs.Heap.Reentry
import Precompiled.Proofs.Heap.Revocation

/-! Invalidation in the middle of linking. While a live class is linked the engine is
asked time and again, and before it answers it may sweep the dependents of any class, or
report the very class as redefined or unloaded. What is taken out of use stays so. A
class that is unloaded receives nothing executable any more; one that is redefined still
receives the methods that were not linked yet. -/
namespace Precompiled.Heap

variable {image : Image} {klass : ClassRef} {classId : Nat} {call : Call} {name : String}
  {start before after state : State} {fresh : Nat → Prop} {source : LinkedCode → Prop}
  {rely : State → State → Prop}

/-- The calls that invalidate the dependents of a class, or by which the live class
goes. -/
inductive Invalidates (klass : ClassRef) : Call → Prop where
  | sweep (name : String) : Invalidates klass (.sweep name)
  | goes {call : Call} (goes : Goes klass call) : Invalidates klass call

theorem Invalidates.installs_nothing (invalidates : Invalidates klass call) (code : LinkedCode) :
    ¬Source image call code := by
  cases invalidates with
  | sweep name => nofun
  | goes goes => cases goes <;> nofun

/-! ## The binding of the live class -/

/-- The live class is bound to a class of the blob. -/
def BoundTo (klass : ClassRef) (classId : Nat) (state : State) : Prop :=
  state.binding? klass = some classId

theorem BoundTo.of_same (bound : BoundTo klass classId before)
    (same : after.bindings = before.bindings) : BoundTo klass classId after := by
  rwa [BoundTo, State.binding?, same]

/-- The class of the blob that a live class is bound to is the one known for it. -/
theorem BoundTo.entryOf {entry : ClassEntry} (bound : BoundTo klass classId state)
    (known : image.classEntry? classId = some entry) :
    Heap.entryOf image state klass = some entry := by
  have behind : boundEntry image state klass = some entry :=
    Option.bind_eq_some_iff.mpr ⟨classId, bound, known⟩
  rw [Heap.entryOf, behind]

theorem BoundTo.beside : ∀ before after, BoundTo klass classId before → before.Beside after →
    BoundTo klass classId after :=
  State.Beside.keeps fun _ _ bound => bound

theorem sweep_spares_binding {heard : Engine.signature.Heard} (bound : BoundTo klass classId before)
    (change : Change image (.sweep name) heard before after) : BoundTo klass classId after := by
  rcases change.bindings nofun nofun with same | ⟨entry, view, presented, -⟩
  · exact bound.of_same same
  · cases presented

/-- Once the class is matched, linking does not touch bindings. -/
theorem matched_keeps_binding : (matchedConduct image name source rely).Spares
    fun cell => BoundTo klass classId cell.state := by
  apply spares_of
  · rintro heard before after bound (linked | change)
    · exact bound.of_same linked.bindings
    · exact sweep_spares_binding bound change
  · intro request before after bound asked
    exact bound.of_same asked.bindings

/-- A live class that is bound to a class that there is stays bound while it is linked. -/
theorem linking_keeps_binding {entry : ClassEntry} {view : ClassView}
    (known : image.classEntry? classId = some entry) : (openConduct image (.loadClass view)).Spares
      fun cell => BoundTo klass classId cell.state := by
  apply spares_of
  · intro heard before after bound change
    rcases change.bindings nofun nofun with same | ⟨other, view, -, -, unbound, binding⟩
    · exact bound.of_same same
    · have apart : klass ≠ view.klass := by
        rintro rfl
        have behind := Option.bind_eq_some_iff.mpr ⟨classId, bound, known⟩
        cases unbound.symm.trans behind
      rw [BoundTo, binding, if_neg apart]
      exact bound
  · intro request before after bound asked
    exact bound.of_same asked.bindings

/-- Only the calls by which a class goes take its binding away. -/
theorem invalidation_keeps_binding (invalidates : Invalidates klass call)
    (stays : ¬Goes klass call) :
    (openConduct image call).Spares fun cell => BoundTo klass classId cell.state := by
  cases invalidates with
  | goes goes => exact absurd goes stays
  | sweep name =>
    apply spares_of
    · intro heard before after bound change
      exact sweep_spares_binding bound change
    · intro request before after bound asked
      exact bound.of_same asked.bindings

/-! ## The code of the live class -/

/-- The record of a code id belongs to the class of the blob that the live class is
bound to. -/
def OfBound (image : Image) (klass : ClassRef) (state : State) (codeId : Nat) : Prop :=
  ∃ entry : ClassEntry, image.classEntry? entry.classId = some entry ∧
    BoundTo klass entry.classId state ∧ image.Assigns codeId entry.classId

/-- Code of a live class that is executable was so from the start, except in `fresh`
slots. -/
structure Accounted (klass : ClassRef) (start : State) (fresh : Nat → Prop) (state : State) :
    Prop where
  orderly : state.Orderly
  unheld : state.Every Unheld
  executable : ∀ codeId code, state.executable? codeId = some code → code.holder = some klass →
    start.executable? codeId = some code ∨ fresh codeId

namespace Accounted

theorem touches (accounted : Accounted klass start fresh before) (touches : before.Touches after) :
    Accounted klass start fresh after where
  orderly := accounted.orderly.touches touches
  unheld := accounted.unheld.touches accounted.orderly touches
  executable codeId code running :=
    accounted.executable codeId code (touches.executable accounted.orderly running)

theorem ask {request : Engine.Request} (accounted : Accounted klass start fresh before)
    (known : ∀ code, source code → Unheld code ∧ (code.holder = some klass → fresh code.codeId))
    (asked : Ask image source request before after) : Accounted klass start fresh after := by
  rcases asked.touches with ⟨touches, -⟩ | ⟨code, -, own, installed⟩
  · exact accounted.touches touches
  · obtain ⟨unheld, destined⟩ := known code own
    refine ⟨accounted.orderly.install installed, accounted.unheld.install unheld installed, ?_⟩
    intro codeId taken running holder
    rcases installed.executable running with ⟨rfl, rfl⟩ | elsewhere
    · exact .inr (destined holder)
    · exact accounted.executable codeId taken elsewhere holder

theorem beside : ∀ before after, Accounted klass start fresh before → before.Beside after →
    Accounted klass start fresh after :=
  State.Beside.keeps fun _ _ accounted =>
    ⟨accounted.orderly, accounted.unheld, accounted.executable⟩

/-- A call that installs nothing makes nothing executable. -/
theorem spared (none : ∀ code, ¬Source image call code) : (callConduct image call rely).Spares
    fun cell => Accounted klass start fresh cell.state :=
  spares_of (fun _ _ _ accounted change => accounted.touches change.touches)
    fun _ _ _ accounted asked => accounted.ask (fun code known => absurd known (none code)) asked

/-- Linking makes code executable in the slots of the class of the blob that the live
class was bound to. -/
theorem matched (consistent : image.Consistent) :
    (matchedConduct image name (Destined image klass state) rely).Spares
      fun cell => Accounted klass start (OfBound image klass state) cell.state := by
  apply spares_of
  · rintro heard before after accounted (linked | change)
    · exact accounted.touches linked.touches
    · exact accounted.touches change.touches
  · intro request before after accounted asked
    refine accounted.ask ?_ asked
    rintro code ⟨entry, linked, bound⟩
    have assigned := consistent entry klass code linked
    exact ⟨linked.unheld, fun _ => ⟨entry, linked.known, bound, assigned⟩⟩

/-- What is dead was executable for the live class neither now nor ever. -/
theorem released (accounted : Accounted klass start fresh state) {codeId : Nat} {code : LinkedCode}
    (dead : state.Dead codeId) (running : state.executable? codeId = some code) :
    code.holder ≠ some klass := by
  by_cases method : code.isStub = true
  · have unheld := accounted.unheld codeId code (holds_of_executable running).1 method
    rw [unheld]
    nofun
  · exact absurd (runs_iff.mpr ⟨running, by simpa using method⟩) (dead.idle code)

end Accounted

/-! ## Linking with calls inside -/

section Linking

variable {view : ClassView} {cell last : Cell} {log : Log} {reply : Except Miss Nat}

/-- What linking makes executable for the live class belongs to the class of the blob to
which it stays bound until it goes. -/
theorem loadClass_accounted (consistent : image.Consistent) (orderly : cell.state.Orderly)
    (unheld : cell.state.Every Unheld)
    (run : Runs image (Invalidates view.klass) (loadClass image view cell) log reply last) :
    ∃ middle : State,
      Accounted view.klass cell.state (OfBound image view.klass middle) last.state ∧
        ∀ classId, BoundTo view.klass classId middle →
          KeptUntil (Goes view.klass) (BoundTo view.klass classId) log last.state := by
  obtain ⟨middle, changes, obeys⟩ := loadClass_matched image (fun _ _ => True)
    (.resolveClass view) (fun _ _ => True) cell
  refine ⟨middle.state, ?_, fun classId bound => ?_⟩
  · have begun :
        Accounted view.klass cell.state (OfBound image view.klass middle.state) cell.state :=
      ⟨orderly, unheld, fun _ _ running _ => .inl running⟩
    have unlinked (code : LinkedCode) : ¬Source image (.resolveClass view) code := nofun
    have matched := (Accounted.spared unlinked).changes begun changes
    have spares : (matchedConduct image view.name (Destined image view.klass middle.state)
        fun _ _ => True).Spares
        fun other =>
          Accounted view.klass cell.state (OfBound image view.klass middle.state) other.state :=
      Accounted.matched consistent
    have stays : KeptUntil (fun _ => False)
        (Accounted view.klass cell.state (OfBound image view.klass middle.state)) log last.state :=
      run.until Accounted.beside
        (fun call invalidates _ => Accounted.spared invalidates.installs_nothing)
        spares obeys.ready (obeys.spares spares matched)
    exact stays.last
  · exact run.until BoundTo.beside (fun call => invalidation_keeps_binding) matched_keeps_binding
      obeys.ready (obeys.spares matched_keeps_binding bound)

/-- What the calls within a run of linking achieve. -/
structure Prevails (image : Image) (klass : ClassRef) (start : State) (log : Log) (last : State) :
    Prop where
  /-- What a call took out of use when it began is out of use at the end. -/
  condemned : ∀ call state, (call, state) ∈ log → ∀ codeId, Condemns image state call codeId →
    last.Dead codeId
  /-- Once the live class goes it has nothing executable but methods that were not linked
  when it was redefined, and what it had before outside the class of the blob known for
  it. -/
  gone : ∀ front call state back, log = front ++ (call, state) :: back → Goes klass call →
    (∀ entry ∈ front, ¬Goes klass entry.1) → ∀ codeId code, last.executable? codeId = some code →
      code.holder = some klass →
        call = .flush klass ∧ state.phase? codeId = some .unresolved ∨
        start.executable? codeId = some code ∧
          ∀ entry, entryOf image state klass = some entry → ¬image.Assigns codeId entry.classId

/-- The calls by which a live class goes take all code of its class of the blob out of
use, except for methods that are not linked when it is redefined. -/
theorem Goes.condemns (goes : Goes klass call) {entry : ClassEntry} {codeId : Nat}
    (known : entryOf image state klass = some entry) (assigned : image.Assigns codeId entry.classId)
    (alive : state.phase? codeId = some .unresolved ∨ state.phase? codeId = some .resolved)
    (linked : ¬(call = .flush klass ∧ state.phase? codeId = some .unresolved)) :
    Condemns image state call codeId := by
  cases goes with
  | flush =>
    rcases alive with unresolved | resolved
    · exact absurd ⟨rfl, unresolved⟩ linked
    · exact .redefined known assigned resolved
  | unload => exact .retired known assigned

theorem prevails_of_run (consistent : image.Consistent) (orderly : cell.state.Orderly)
    (unheld : cell.state.Every Unheld)
    (run : Runs image (Invalidates view.klass) (loadClass image view cell) log reply last) :
    Prevails image view.klass cell.state log last.state := by
  have follows : (loadClass image view cell).Obeys (openConduct image (.loadClass view))
      (fun _ _ _ => True) (fun _ _ => True) cell := loadClass_follows _ cell
  obtain ⟨middle, accounted, stays⟩ := loadClass_accounted consistent orderly unheld run
  refine ⟨fun call state among codeId doomed => run.condemned follows.ready among doomed, ?_⟩
  rintro front call state back rfl goes none codeId code running own
  by_cases unlinked : call = .flush view.klass ∧ state.phase? codeId = some .unresolved
  · exact .inl unlinked
  have among : (call, state) ∈ front ++ (call, state) :: back := by simp
  have alive := (run.grown follows.ready among).resolved_from (holds_of_executable running).2
  have foreign (entry : ClassEntry) (known : entryOf image state view.klass = some entry) :
      ¬image.Assigns codeId entry.classId := by
    intro assigned
    have doomed := goes.condemns known assigned alive unlinked
    exact accounted.released (run.condemned follows.ready among doomed) running own
  refine .inr ⟨?_, foreign⟩
  rcases accounted.executable codeId code running own with before | ⟨entry, known, bound, assigned⟩
  · exact before
  -- what was linked belongs to the class to which it was still bound when it went
  · have still : BoundTo view.klass entry.classId state := (stays entry.classId bound).holds none
    exact absurd assigned (foreign entry (still.entryOf known))

/-- Once the live class goes it has nothing executable but methods that were not linked
when it was redefined. -/
def Stripped (klass : ClassRef) (log : Log) (last : State) : Prop :=
  ∀ front call state back, log = front ++ (call, state) :: back → Goes klass call →
    (∀ entry ∈ front, ¬Goes klass entry.1) → ∀ codeId code, last.executable? codeId = some code →
      code.holder = some klass → call = .flush klass ∧ state.phase? codeId = some .unresolved

/-- Where custody held when linking began, a live class has executable code in no class
of the blob but the one known for it. -/
theorem stripped_of_prevails (kept : Kept image cell.state) (unheld : cell.state.Every Unheld)
    (run : Runs image (Invalidates view.klass) (loadClass image view cell) log reply last)
    (prevails : Prevails image view.klass cell.state log last.state) :
    Stripped view.klass log last.state := by
  rintro front call state back rfl goes none codeId code running own
  rcases prevails.gone _ call state back rfl goes none codeId code running own with
    unlinked | ⟨before, foreign⟩
  · exact unlinked
  have method : code.isStub = false := by
    rw [Bool.eq_false_iff]
    intro isStub
    have unheld := unheld codeId code (holds_of_executable before).1 isStub
    cases unheld.symm.trans own
  obtain ⟨classId, holder, -, same, assigned, bound⟩ :=
    kept.held codeId code (runs_iff.mpr ⟨before, method⟩)
  obtain rfl := Option.some.inj (own.symm.trans same)
  obtain bound := bound.resolve_right id
  obtain ⟨entry, -, -, known, -⟩ := kept.seated _ classId bound
  have follows : (loadClass image view cell).Obeys (openConduct image (.loadClass view))
      (fun _ _ _ => True) (fun _ _ => True) cell := loadClass_follows _ cell
  have spares : (openConduct image (.loadClass view)).Spares
      fun cell => BoundTo view.klass classId cell.state := linking_keeps_binding known
  have stays := run.until BoundTo.beside (fun call => invalidation_keeps_binding)
    spares follows.ready (follows.spares spares bound)
  obtain rfl := classEntry_number known
  exact absurd assigned (foreign entry ((stays.holds none).entryOf known))

end Linking

/-! ## A call inside -/

/-- The run in which a call is carried out before the first question of a kind is
answered. Every question gets the answer given beforehand. -/
def interrupted {α : Type} (image : Image)
    (answers : (request : Engine.signature.Request) → Engine.signature.Answer request)
    (kind : Engine.Request → Bool) (call : Call) : Dialogue Engine.signature Cell α → Log × α × Cell
  | .done result cell => ([], result, cell)
  | .ask request cell resume =>
    if kind request then
      let replied := ((perform image call cell).conclude answers).2
      ([(call, cell.state)], (resume (answers request) replied).conclude answers)
    else interrupted image answers kind call (resume (answers request) cell)

theorem conclude_runs {α : Type} (image : Image) (admits : Call → Prop)
    (answers : (request : Engine.signature.Request) → Engine.signature.Answer request)
    (dialogue : Dialogue Engine.signature Cell α) :
    Runs image admits dialogue [] (dialogue.conclude answers).1 (dialogue.conclude answers).2 := by
  induction dialogue with
  | done result cell => exact .done result cell
  | ask request cell resume ih => exact .answer (answers request) (.refl _) (ih _ cell)

theorem interrupted_runs {α : Type} {admits : Call → Prop} {call : Call} (image : Image)
    (answers : (request : Engine.signature.Request) → Engine.signature.Answer request)
    (kind : Engine.Request → Bool) (admitted : admits call)
    (dialogue : Dialogue Engine.signature Cell α) :
    Runs image admits dialogue (interrupted image answers kind call dialogue).1
      (interrupted image answers kind call dialogue).2.1
      (interrupted image answers kind call dialogue).2.2 := by
  induction dialogue with
  | done result cell => exact .done result cell
  | ask request cell resume ih =>
    unfold interrupted
    split
    · exact .call admitted (.refl _) (conclude_runs image admits answers _)
        (.answer (answers request) (.refl _) (conclude_runs image admits answers _))
    · exact .answer (answers request) (.refl _) (ih _ cell)

section Built

variable {edits : List Blob.Edit} {settings : Blob.BuildSettings} {engineVersion name : String}
  {id : Nat} {options : LoadOptions} {loading journal : Journal} {library : Library} {heap : Heap}
  {start : (service heap.image).Course} {view : ClassView} {log : Log} {reply : Except Miss Nat}
  {last : Cell}

/-- In every heap of a built blob, invalidation in the middle of linking prevails: the
dependents that it covers stay out of use, and a live class that goes has nothing
executable but methods that were not linked when it was redefined. Code from before that
the class holds elsewhere can only be left over from earlier calls within calls. Neither
exception can be dropped: a method is linked that the redefinition spared, and in the run
of `leftover_survives` code from before stays in use. -/
theorem invalidation_prevails (known : Blob.Edits.Known edits)
    (addressable : (Blob.Draft.describe settings engineVersion edits).Addressable)
    (loaded : ((Library.load (Blob.Draft.describe settings engineVersion edits).assemble name id
      options).run loading).1 = .ok library)
    (created : ((Heap.create library).run journal).1 = .ok heap)
    (reached : Reaches heap Native start)
    (run : Runs heap.image (Invalidates view.klass)
      (perform heap.image (.loadClass view) start.state)
      log reply last) :
    Prevails heap.image view.klass start.state.state log last.state ∧
      (Reaches heap Alone start → Calm start → Stripped view.klass log last.state) := by
  have consistent := built_consistent known addressable loaded created
  have pristine := created_pristine created
  have orderly : start.state.state.Orderly := (reached.chronicle pristine).orderly
  have unheld := reached.unheld created
  have prevails := prevails_of_run consistent orderly unheld run
  refine ⟨prevails, fun alone calm => ?_⟩
  exact stripped_of_prevails (alone.kept consistent created calm) unheld run prevails

end Built

/-! ## One class with one method -/

/-- The live class of the sample is linked, and the call is carried out when the engine
is asked for its method. -/
def sampleInterrupted (heap : Heap) (call : Call) : Log × Except Miss Nat × Cell :=
  interrupted heap.image (fun request => lavish (.engine request))
    (fun request => request matches .findMethod _ _) call
    (loadClass heap.image sampleView { state := heap.state })

/-- The first slot belongs to the class of the blob known for the live class of the
sample. -/
def sampleOwned (image : Image) (state : State) : Bool :=
  (entryOf image state sampleView.klass).any fun entry =>
    (image.record? 0).any fun owned => owned.classId = some entry.classId

set_option maxRecDepth 1000000 in
theorem single_unloaded : (built? single).any (fun built =>
    (sampleInterrupted built.2 (.unload sampleView.klass)).1.any fun entry =>
      entry.1 = .unload sampleView.klass && sampleOwned built.2.image entry.2) = true := by
  decide +kernel

theorem invalidation_prevails_single : ∃ (library : Library) (heap : Heap) (log : Log)
    (reply : Except Miss Nat) (state : State) (last : Cell),
    ((Library.load (Blob.Draft.describe {} "1" single).assemble "lib" 0
      { verifyChecksum := false }).run []).1 = .ok library ∧
    ((Heap.create library).run []).1 = .ok heap ∧
    Reaches heap Native { state := { state := heap.state } } ∧
    Runs heap.image (Invalidates sampleView.klass)
      (perform heap.image (.loadClass sampleView) { state := heap.state }) log reply last ∧
    (.unload sampleView.klass, state) ∈ log ∧
    Condemns heap.image state (.unload sampleView.klass) 0 ∧
    Prevails heap.image sampleView.klass heap.state log last.state ∧
    Stripped sampleView.klass log last.state := by
  obtain ⟨⟨library, heap⟩, built, inside⟩ := (Option.any_eq_true _ _).mp single_unloaded
  obtain ⟨loaded, created⟩ := built_some built
  obtain ⟨⟨call, state⟩, among, both⟩ := List.any_eq_true.mp inside
  obtain ⟨same, owned⟩ := Bool.and_eq_true_iff.mp both
  obtain rfl : call = .unload sampleView.klass := by simpa using same
  obtain ⟨entry, known, owned⟩ := (Option.any_eq_true _ _).mp owned
  obtain ⟨record, recorded, own⟩ := (Option.any_eq_true _ _).mp owned
  have condemned : Condemns heap.image state (.unload sampleView.klass) 0 :=
    .retired known ⟨record, recorded, by simpa using own⟩
  have start : Reaches heap Native { state := { state := heap.state } } := ⟨{}, [], .refl⟩
  have run : Runs heap.image (Invalidates sampleView.klass)
      (perform heap.image (.loadClass sampleView) { state := heap.state })
      (sampleInterrupted heap (.unload sampleView.klass)).1 _ _ :=
    interrupted_runs heap.image _ _ (.goes .unload) _
  have calm : Calm ({ state := { state := heap.state } } : (service heap.image).Course) :=
    calm_of_idle rfl
  obtain ⟨prevails, stripped⟩ :=
    invalidation_prevails single_known single_addressable loaded created start run
  exact ⟨library, heap, _, _, state, _, loaded, created, start, run, among, condemned, prevails,
    stripped ⟨{}, [], .refl⟩ calm⟩

set_option maxRecDepth 1000000 in
theorem single_overtaken : (built? single).any (fun built =>
    let run := sampleInterrupted built.2 (.flush sampleView.klass)
    run.1.any (fun entry => entry.1 = .flush sampleView.klass) && sampleRuns run.2.2) = true := by
  decide +kernel

/-- The live class is redefined when the engine is asked for its method: it is linked
nevertheless, and the method becomes executable. -/
theorem redefinition_overtaken : ∃ (library : Library) (heap : Heap) (log : Log)
    (reply : Except Miss Nat) (state : State) (last : Cell) (code : LinkedCode),
    ((Library.load (Blob.Draft.describe {} "1" single).assemble "lib" 0
      { verifyChecksum := false }).run []).1 = .ok library ∧
    ((Heap.create library).run []).1 = .ok heap ∧
    Reaches heap Native { state := { state := heap.state } } ∧
    Runs heap.image (Invalidates sampleView.klass)
      (perform heap.image (.loadClass sampleView) { state := heap.state }) log reply last ∧
    (.flush sampleView.klass, state) ∈ log ∧ last.state.executable? 0 = some code ∧
    code.holder = some sampleView.klass := by
  obtain ⟨⟨library, heap⟩, built, both⟩ := (Option.any_eq_true _ _).mp single_overtaken
  obtain ⟨loaded, created⟩ := built_some built
  obtain ⟨inside, runs⟩ := Bool.and_eq_true_iff.mp both
  obtain ⟨⟨call, state⟩, among, same⟩ := List.any_eq_true.mp inside
  obtain rfl : call = .flush sampleView.klass := by simpa using same
  obtain ⟨code, executable, own⟩ := (Option.any_eq_true _ _).mp runs
  exact ⟨library, heap, _, _, state, _, code, loaded, created, ⟨{}, [], .refl⟩,
    interrupted_runs heap.image _ _ (.goes .flush) _, among, executable, by simpa using own⟩

/-! ## Two names for one class -/

/-- Two classes with a method each. -/
def twins : List Blob.Edit :=
  [.addClass "A" 7, .addClass "B" 8, .addMethod 0 { name := "m", signature := "()V" },
   .addMethod 1 { name := "m", signature := "()V" }]

/-- The live class of the sample under another name. -/
def renamedView : ClassView :=
  { sampleView with name := "B", fingerprint := 8 }

/-- The cell after the live class was redefined in the middle of linking. -/
def redefinedCell (heap : Heap) : Cell :=
  Service.nest lavish (service heap.image) (.call (.loadClass sampleView))
    (.call (.flush sampleView.klass)) { state := heap.state }

/-- From there the live class is linked under its other name, and unloaded in the middle
of that. -/
def renamedRun (heap : Heap) : Log × Except Miss Nat × Cell :=
  interrupted heap.image (fun request => lavish (.engine request))
    (fun request => request matches .findMethod _ _) (.unload sampleView.klass)
    (loadClass heap.image renamedView (redefinedCell heap))

set_option maxRecDepth 1000000 in
theorem twins_renamed : (built? twins).any (fun built =>
    let start := redefinedCell built.2
    let (log, _, last) := renamedRun built.2
    log.map Prod.fst = [.unload sampleView.klass] && sampleRuns start &&
      last.state.executable? 0 = start.state.executable? 0) = true := by
  decide +kernel

/-- Code that a live class has from a link in flight when it was redefined survives when
the class is unloaded while it is linked under another name: it is no code of the class
of the blob known for it by then. So after calls within calls the class need not be
stripped. -/
theorem leftover_survives : ∃ (library : Library) (heap : Heap)
    (start : (service heap.image).Course) (reply : Except Miss Nat) (state : State) (last : Cell)
    (code : LinkedCode),
    ((Library.load (Blob.Draft.describe {} "1" twins).assemble "lib" 0
      { verifyChecksum := false }).run []).1 = .ok library ∧
    ((Heap.create library).run []).1 = .ok heap ∧ Reaches heap Native start ∧
    Runs heap.image (Invalidates sampleView.klass)
      (perform heap.image (.loadClass renamedView) start.state)
      [(.unload sampleView.klass, state)] reply last ∧
    start.state.state.executable? 0 = some code ∧ last.state.executable? 0 = some code ∧
    code.holder = some sampleView.klass ∧
    ¬Stripped sampleView.klass [(.unload sampleView.klass, state)] last.state := by
  obtain ⟨⟨library, heap⟩, built, checked⟩ := (Option.any_eq_true _ _).mp twins_renamed
  obtain ⟨loaded, created⟩ := built_some built
  simp only [Bool.and_eq_true, decide_eq_true_eq] at checked
  obtain ⟨⟨inside, runs⟩, same⟩ := checked
  have native (course : (service heap.image).Course) (call : Call)
      (plain : ∀ code, call ≠ .publish code) : Native course (.call call) :=
    fun code same => absurd (Task.call.inj same) (plain code)
  let origin : (service heap.image).Course := { state := { state := heap.state } }
  obtain ⟨start, onward, -, state⟩ := Service.Course.nests lavish origin
    (.call (.loadClass sampleView)) (.call (.flush sampleView.klass)) rfl (native _ _ nofun)
    fun other => native other _ nofun
  have run : Runs heap.image (Invalidates sampleView.klass)
      (perform heap.image (.loadClass renamedView) start.state)
      (renamedRun heap).1 (renamedRun heap).2.1 (renamedRun heap).2.2 := by
    rw [state]
    exact interrupted_runs heap.image _ _ (.goes .unload) _
  obtain ⟨⟨call, before⟩, alone, rfl⟩ := List.map_eq_singleton_iff.mp inside
  rw [alone] at run
  obtain ⟨code, executable, own⟩ := (Option.any_eq_true _ _).mp runs
  have holder : code.holder = some sampleView.klass := by simpa using own
  have running := same.trans executable
  refine ⟨library, heap, start, _, before, _, code, loaded, created, ⟨{}, [], onward⟩, run, ?_,
    running, holder, fun stripped => ?_⟩
  · rw [state]
    exact executable
  · obtain ⟨impossible, -⟩ := stripped [] _ before [] rfl .unload nofun 0 code running holder
    cases impossible

end Precompiled.Heap
