import Precompiled.Proofs.Heap.Chronicle

/-! Who holds the code of a class. Bindings, metaspace slots and loaders are written
by different operations and in different orders. While no class is on its way out
they agree: a bound class sits in its metaspace slot, its loader is known, and all
executable code of a class of the blob is held by the one live class that is bound
to it. -/
namespace Precompiled

namespace Heap

variable {image : Image} {before after state : State} {klass : ClassRef} {classId : Nat}
  {spared : Nat → Prop}

/-- The record of a code id belongs to a class of the blob. -/
def Image.Assigns (image : Image) (codeId classId : Nat) : Prop :=
  ∃ owned, image.record? codeId = some owned ∧ owned.classId = some classId

/-- A live class has the place of a class of the blob: its metaspace slot, and a
loader that nobody else can take. -/
def Seated (image : Image) (state : State) (klass : ClassRef) (classId : Nat) : Prop :=
  ∃ entry index loader, image.classEntry? classId = some entry ∧
    natural? entry.record.gotIndex = some index ∧ state.metaspace.get index = some klass ∧
    state.loader? classId = some loader

/-- Bindings, places and holders agree, except that the code of a spared class may
have lost its holder. -/
structure Custody (image : Image) (spared : Nat → Prop) (state : State) : Prop where
  orderly : state.Orderly
  sized : state.loaders.length = image.classCount
  seated : ∀ klass classId, state.binding? klass = some classId → Seated image state klass classId
  held : ∀ codeId code, state.Runs codeId code → ∃ classId klass, code.classId = some classId ∧
    code.holder = some klass ∧ image.Assigns codeId classId ∧
    (state.binding? klass = some classId ∨ spared classId)

/-! ## What is retained -/

/-- Nothing is taken away but code, and who is newly bound has a place. -/
structure State.Retains (image : Image) (before after : State) : Prop where
  sized : after.loaders.length = before.loaders.length
  loaders : ∀ classId loader, before.loader? classId = some loader →
    after.loader? classId = some loader
  metaspace : ∀ index klass, before.metaspace.get index = some klass →
    after.metaspace.get index = some klass
  bindings : ∀ klass classId, before.binding? klass = some classId →
    after.binding? klass = some classId
  bound : ∀ klass classId, after.binding? klass = some classId →
    before.binding? klass = some classId ∨ Seated image after klass classId

theorem Seated.retains (seated : Seated image before klass classId)
    (retains : before.Retains image after) : Seated image after klass classId := by
  obtain ⟨entry, index, loader, known, slot, held, bound⟩ := seated
  exact ⟨entry, index, loader, known, slot, retains.metaspace _ _ held, retains.loaders _ _ bound⟩

/-- There is room for the loader of every class, and whoever is bound is seated. -/
structure Seats (image : Image) (state : State) : Prop where
  sized : state.loaders.length = image.classCount
  seated : ∀ klass classId, state.binding? klass = some classId → Seated image state klass classId

theorem Custody.seats (custody : Custody image spared state) : Seats image state :=
  ⟨custody.sized, custody.seated⟩

theorem Seats.retains (seats : Seats image before) (retains : before.Retains image after) :
    Seats image after where
  sized := retains.sized.trans seats.sized
  seated klass classId binding := by
    rcases retains.bound klass classId binding with old | seated
    · exact (seats.seated klass classId old).retains retains
    · exact seated

theorem Custody.retains (custody : Custody image spared before)
    (retains : before.Retains image after) (orderly : after.Orderly)
    (runs : ∀ codeId code, after.Runs codeId code → before.Runs codeId code) :
    Custody image spared after where
  orderly := orderly
  sized := (custody.seats.retains retains).sized
  seated := (custody.seats.retains retains).seated
  held codeId code running := by
    obtain ⟨classId, klass, own, holder, assigned, bound⟩ := custody.held codeId code (runs _ _ running)
    refine ⟨classId, klass, own, holder, assigned, ?_⟩
    rcases bound with bound | spare
    · exact .inl (retains.bindings klass classId bound)
    · exact .inr spare

theorem State.Retains.of_same (loaders : after.loaders = before.loaders)
    (metaspace : after.metaspace = before.metaspace) (bindings : after.bindings = before.bindings) :
    before.Retains image after where
  sized := by rw [loaders]
  loaders classId loader bound := by rwa [State.loader?, loaders]
  metaspace index klass held := by rwa [metaspace]
  bindings klass classId bound := by rwa [State.binding?, bindings]
  bound klass classId bound := .inl (by rwa [State.binding?, bindings] at bound)

/-! ## Taking a place -/

section Places

variable {entry : ClassEntry} {view : ClassView} {loader : LoaderId}

theorem bindLoader_keeps (classId : Nat) (loader : LoaderId) (state : State) {other : Nat}
    {current : LoaderId} (bound : state.loader? other = some current) :
    (state.bindLoader classId loader).2.loader? other = some current := by
  unfold State.bindLoader
  split
  · exact bound
  · rename_i free
    have apart : classId ≠ other := by
      rintro rfl
      simp [free] at bound
    rw [State.loader?, List.getElem?_set_ne apart]
    exact bound

theorem bindLoader_bound (inside : classId < state.loaders.length)
    (taken : (state.bindLoader classId loader).1 = true) :
    (state.bindLoader classId loader).2.loader? classId = some loader := by
  unfold State.bindLoader at taken ⊢
  split at taken
  · rename_i current bound
    obtain rfl : current = loader := by simpa using taken
    exact bound
  · simp only [State.loader?, List.getElem?_set_self inside, Option.join_some]

theorem bindLoader_frame (classId : Nat) (loader : LoaderId) (state : State) :
    (state.bindLoader classId loader).2.metaspace = state.metaspace ∧
      (state.bindLoader classId loader).2.bindings = state.bindings ∧
      (state.bindLoader classId loader).2.loaders.length = state.loaders.length := by
  unfold State.bindLoader
  split
  · exact ⟨rfl, rfl, rfl⟩
  · exact ⟨rfl, rfl, List.length_set⟩

/-- Claiming a place takes nothing away, whether it succeeds or not. -/
theorem claimPlace_retains (entry : ClassEntry) (view : ClassView) (state : State) :
    state.Retains image (claimPlace entry view state).2 := by
  obtain ⟨metaspace, bindings, count⟩ := bindLoader_frame entry.classId view.loader state
  have loaders : ∀ classId loader, state.loader? classId = some loader →
      (state.bindLoader entry.classId view.loader).2.loader? classId = some loader :=
    fun classId loader bound => bindLoader_keeps entry.classId view.loader state bound
  have bound : state.Retains image (state.bindLoader entry.classId view.loader).2 :=
    { sized := count
      loaders := loaders
      metaspace := fun _ _ held => by rwa [metaspace]
      bindings := fun _ _ held => by rwa [State.binding?, bindings]
      bound := fun _ _ held => .inl (by rwa [State.binding?, bindings] at held) }
  unfold claimPlace
  split
  · exact .of_same rfl rfl rfl
  rename_i index slot
  split
  · exact .of_same rfl rfl rfl
  dsimp only
  split
  · exact bound
  · exact
      { sized := bound.sized
        loaders := bound.loaders
        metaspace := fun _ _ held => Got.setIfNull_get (bound.metaspace _ _ held)
        bindings := bound.bindings
        bound := fun _ _ held => .inl (by rwa [State.binding?, bindings] at held) }

/-- Claiming a place with success yields it. -/
theorem claimPlace_claimed (inside : entry.classId < state.loaders.length)
    (claimed : (claimPlace entry view state).1 = true) :
    ∃ index, natural? entry.record.gotIndex = some index ∧
      (claimPlace entry view state).2.metaspace.get index = some view.klass ∧
      (claimPlace entry view state).2.loader? entry.classId = some view.loader := by
  unfold claimPlace at claimed ⊢
  cases slot : natural? entry.record.gotIndex with
  | none => simp [slot] at claimed
  | some index =>
    simp only [slot] at claimed ⊢
    split at claimed
    · cases claimed
    rename_i free
    rw [if_neg free]
    cases taken : (state.bindLoader entry.classId view.loader).1 with
    | false => simp [taken] at claimed
    | true =>
      simp only [taken, Bool.not_true, Bool.false_eq_true, if_false, beq_iff_eq] at claimed ⊢
      have bound := bindLoader_bound inside taken
      rw [(bindLoader_frame entry.classId view.loader state).1] at claimed ⊢
      exact ⟨index, rfl, Got.setIfNull_value claimed, bound⟩

end Places

/-! ## Changes that keep custody -/

section Changes

variable {code : LinkedCode} {codeId : Nat} {slot later : Slot} {call : Call} {task : Task}

theorem retire_executable (executable : slot.retire.2.executable = some code) :
    slot.executable = some code := by
  unfold Slot.retire at executable
  split at executable
  · cases executable
  · exact executable

theorem invalidate_executable (executable : slot.invalidate.2.executable = some code) :
    slot.executable = some code := by
  unfold Slot.invalidate at executable
  split at executable
  · exact executable
  · split at executable
    · exact executable
    · cases executable
    · cases executable

theorem Touch.executable (touch : Touch slot later) (orderly : Orderly codeId slot)
    (executable : later.executable = some code) : slot.executable = some code := by
  cases touch with
  | retire => exact retire_executable executable
  | invalidate => exact invalidate_executable executable
  | count => exact executable
  | stray code resolved free =>
    obtain ⟨code, held⟩ := orderly.resolved resolved
    simp [free] at held

theorem runs_iff :
    state.Runs codeId code ↔ state.executable? codeId = some code ∧ code.isStub = false := by
  constructor
  · rintro ⟨slot, found, executable, method⟩
    exact ⟨Option.bind_eq_some_iff.mpr ⟨slot, found, executable⟩, method⟩
  · rintro ⟨found, method⟩
    obtain ⟨slot, there, executable⟩ := Option.bind_eq_some_iff.mp found
    exact ⟨slot, there, executable, method⟩

/-- Touching slots makes no code executable. -/
theorem State.Touches.executable (touches : before.Touches after) (orderly : before.Orderly)
    (running : after.executable? codeId = some code) : before.executable? codeId = some code := by
  obtain ⟨there, placed, executable⟩ := Option.bind_eq_some_iff.mp running
  apply Option.bind_eq_some_iff.mpr
  cases touches with
  | none same => exact ⟨there, same ▸ placed, executable⟩
  | one found touch changed =>
    rw [changed] at placed
    rcases set_slot placed with ⟨rfl, rfl⟩ | ⟨-, elsewhere⟩
    · exact ⟨_, found, touch.executable (orderly _ _ found) executable⟩
    · exact ⟨there, elsewhere, executable⟩

theorem State.Touches.runs (touches : before.Touches after) (orderly : before.Orderly)
    (runs : after.Runs codeId code) : before.Runs codeId code := by
  obtain ⟨executable, method⟩ := runs_iff.mp runs
  exact runs_iff.mpr ⟨touches.executable orderly executable, method⟩

theorem Fill.retains {heard : Engine.signature.Heard} (filled : Fill image heard before after) :
    before.Retains image after := by
  cases filled with
  | metaspace named told =>
    exact
      { sized := rfl
        loaders := fun _ _ bound => bound
        metaspace := fun _ _ held => Got.setIfNull_get held
        bindings := fun _ _ bound => bound
        bound := fun _ _ bound => .inl bound }
  | metadata named told => exact .of_same rfl rfl rfl
  | object named told => exact .of_same rfl rfl rfl

theorem Link.retains {source : LinkedCode → Prop} {heard : Engine.signature.Heard}
    (linked : Link image source heard before after) : before.Retains image after := by
  cases linked with
  | fill filled => exact filled.retains
  | stray known found resolved free => exact .of_same rfl rfl rfl

theorem Revoke.retains (revoked : Revoke before after) : before.Retains image after := by
  cases revoked with
  | retire found => exact .of_same rfl rfl rfl
  | invalidate found idle => exact .of_same rfl rfl rfl

theorem admitCode_frame (image : Image) (code : LinkedCode) (state : State) :
    (state.admitCode image code).2.loaders = state.loaders ∧
      (state.admitCode image code).2.metaspace = state.metaspace ∧
      (state.admitCode image code).2.bindings = state.bindings := by
  unfold State.admitCode
  split
  · exact ⟨rfl, rfl, rfl⟩
  · split
    · exact ⟨rfl, rfl, rfl⟩
    · split <;> exact ⟨rfl, rfl, rfl⟩

/-- Leaving out keys leaves the other ones what they are. -/
theorem lookup_kept (keep : ClassRef → Bool) (bindings : List (ClassRef × Nat)) (klass : ClassRef) :
    (bindings.filter fun binding => keep binding.1).lookup klass =
      if keep klass then bindings.lookup klass else none := by
  induction bindings with
  | nil => simp
  | cons binding rest ih =>
    obtain ⟨bound, classId⟩ := binding
    by_cases own : klass = bound
    · subst own
      cases kept : keep klass with
      | true => simp [kept]
      | false => simpa [kept] using ih
    · have apart : (klass == bound) = false := by simpa using own
      cases kept : keep bound <;> simpa [kept, List.lookup_cons, apart] using ih

/-- Leaving out one key leaves the other ones what they are. -/
theorem lookup_without (bindings : List (ClassRef × Nat)) (klass other : ClassRef) :
    (bindings.filter fun binding => binding.1 ≠ klass).lookup other =
      if other = klass then none else bindings.lookup other := by
  rw [lookup_kept fun bound => bound ≠ klass]
  by_cases own : other = klass <;> simp [own]

@[simp] theorem binding_unbind (state : State) (klass other : ClassRef) :
    (state.unbind klass).binding? other = if other = klass then none else state.binding? other :=
  lookup_without state.bindings klass other

@[simp] theorem binding_bind (state : State) (klass other : ClassRef) (classId : Nat) :
    (state.bind klass classId).binding? other =
      if other = klass then some classId else state.binding? other := by
  by_cases own : other = klass
  · simp [State.binding?, State.bind, own]
  · have apart : (other == klass) = false := by simpa using own
    have others := lookup_without state.bindings klass other
    rw [if_neg own] at others
    simp only [State.binding?, State.bind, List.lookup_cons, apart, others, own, if_false]

/-- A live class that is not bound to a known class is not bound at all. -/
theorem Seats.unbound (seats : Seats image state)
    (unbound : boundEntry image state klass = none) : state.binding? klass = none := by
  cases binding : state.binding? klass with
  | none => rfl
  | some classId =>
    obtain ⟨entry, index, loader, known, -⟩ := seats.seated klass classId binding
    simp [boundEntry, binding, known] at unbound

/-- There is room for the loader of every class of the blob. -/
theorem Seats.inside {entry : ClassEntry} {view : ClassView} (seats : Seats image state)
    (fits : Matches image entry view) : entry.classId < state.loaders.length := by
  have known := lookupClass_known fits.found
  rw [seats.sized]
  unfold Image.classEntry? at known
  split at known
  · assumption
  · cases known

/-- A live class is bound only if it was not, and only to its place. -/
theorem bind_retains {entry : ClassEntry} {view : ClassView} (seats : Seats image state)
    (fits : Matches image entry view) (unbound : boundEntry image state view.klass = none)
    (claimed : (claimPlace entry view state).1 = true) :
    state.Retains image ((claimPlace entry view state).2.bind view.klass entry.classId) := by
  have known := lookupClass_known fits.found
  have free := seats.unbound unbound
  have claims : state.Retains image (claimPlace entry view state).2 := claimPlace_retains entry view state
  obtain ⟨index, slot, held, bound⟩ := claimPlace_claimed (seats.inside fits) claimed
  refine
    { sized := claims.sized
      loaders := claims.loaders
      metaspace := claims.metaspace
      bindings := ?_
      bound := ?_ }
  · intro klass classId before
    have apart : klass ≠ view.klass := by
      rintro rfl
      simp [free] at before
    rw [binding_bind, if_neg apart]
    exact claims.bindings klass classId before
  · intro klass classId after
    rw [binding_bind] at after
    split at after
    · rename_i same
      subst same
      obtain rfl := Option.some.inj after
      exact .inr ⟨entry, index, view.loader, known, slot, held, bound⟩
    · rcases claims.bound klass classId after with before | seated
      · exact .inl before
      · exact .inr seated

/-- A change takes nothing away unless a class falls victim to the call: then it loses
its binding or its place. -/
theorem Change.victim {heard : Engine.signature.Heard} (seats : Seats image before)
    (change : Change image call heard before after) : before.Retains image after ∨
      (∃ klass, (call = .flush klass ∨ call = .unload klass) ∧ after = before.unbind klass) ∨
        ∃ klass, call = .unload klass ∧ Drop klass before after := by
  cases change with
  | link linked => exact .inl linked.retains
  | revoke revoked => exact .inl revoked.retains
  | refuse fits taken => exact .inl (claimPlace_retains _ _ _)
  | bind presented fits unbound claimed => exact .inl (bind_retains seats fits unbound claimed)
  | relocate collected relocated =>
    cases relocated
    exact .inl (.of_same rfl rfl rfl)
  | count given =>
    obtain ⟨loaders, metaspace, bindings⟩ := admitCode_frame image _ before
    exact .inl (.of_same loaders metaspace bindings)
  | unbind gone => exact .inr (.inl ⟨_, gone, rfl⟩)
  | drop gone dropped => exact .inr (.inr ⟨_, gone, dropped⟩)
  | routines addresses => exact .inl (.of_same rfl rfl rfl)
  | disable => exact .inl (.of_same rfl rfl rfl)

/-- No call but those that a class falls victim to takes a binding or a place
away. -/
theorem Change.retains {heard : Engine.signature.Heard} (seats : Seats image before)
    (flush : ∀ klass, call ≠ .flush klass) (unload : ∀ klass, call ≠ .unload klass)
    (change : Change image call heard before after) : before.Retains image after := by
  rcases change.victim seats with retains | ⟨klass, same | same, -⟩ | ⟨klass, same, -⟩
  · exact retains
  · exact absurd same (flush klass)
  · exact absurd same (unload klass)
  · exact absurd same (unload klass)

/-- Installing makes its own code executable and no other. -/
theorem Install.executable (installed : Install image code before after) {other : Nat}
    {taken : LinkedCode} (running : after.executable? other = some taken) :
    other = code.codeId ∧ taken = code ∨ before.executable? other = some taken := by
  obtain ⟨there, placed, executable⟩ := Option.bind_eq_some_iff.mp running
  cases installed with
  | slot found unresolved free =>
    rename_i own
    obtain ⟨old, present, phase, handle⟩ := admitCode_slot placed
    have runs : old.executable = some taken := by rwa [Slot.executable, ← phase, ← handle]
    rcases set_slot present with ⟨rfl, rfl⟩ | ⟨-, elsewhere⟩
    · obtain ⟨ownPhase, ownHandle, admitted⟩ := own
      cases (unresolved : ownPhase = .unresolved)
      cases (free : ownHandle = none)
      exact .inl ⟨rfl, (Option.some.inj runs).symm⟩
    · exact .inr (Option.bind_eq_some_iff.mpr ⟨old, elsewhere, runs⟩)

theorem Install.runs (installed : Install image code before after) {other : Nat}
    {taken : LinkedCode} (runs : after.Runs other taken) :
    other = code.codeId ∧ taken = code ∨ before.Runs other taken := by
  obtain ⟨executable, method⟩ := runs_iff.mp runs
  rcases installed.executable executable with own | elsewhere
  · exact .inl own
  · exact .inr (runs_iff.mpr ⟨elsewhere, method⟩)

theorem Install.frame (installed : Install image code before after) :
    after.loaders = before.loaders ∧ after.metaspace = before.metaspace ∧
      after.bindings = before.bindings := by
  cases installed with
  | slot found unresolved free =>
    exact admitCode_frame image code { before with
      slots := before.slots.set code.codeId (Slot.publish code _).2 }

theorem Install.retains (installed : Install image code before after) :
    before.Retains image after := by
  obtain ⟨loaders, metaspace, bindings⟩ := installed.frame
  exact .of_same loaders metaspace bindings

namespace Custody

/-- Touching slots and nothing else keeps custody. -/
theorem touches (custody : Custody image spared before) (retains : before.Retains image after)
    (touches : before.Touches after) : Custody image spared after :=
  custody.retains retains (custody.orderly.touches touches) fun _ _ =>
    touches.runs custody.orderly

theorem link {source : LinkedCode → Prop} {heard : Engine.signature.Heard}
    (custody : Custody image spared before) (linked : Link image source heard before after) :
    Custody image spared after :=
  custody.touches linked.retains linked.touches

theorem deoptimize (custody : Custody image spared before)
    (deoptimized : Deoptimize code before after) : Custody image spared after := by
  cases deoptimized with
  | slot found executable method =>
    exact custody.touches (.of_same rfl rfl rfl) (.one found (.invalidate _) rfl)

/-- Code of a bound class is installed for the class that is bound to it. -/
theorem install (custody : Custody image spared before) (own : code.classId = some classId)
    (holder : code.holder = some klass) (assigned : image.Assigns code.codeId classId)
    (bound : before.binding? klass = some classId) (installed : Install image code before after) :
    Custody image spared after := by
  have retains : before.Retains image after := installed.retains
  have binding := retains.bindings klass classId bound
  refine
    { orderly := custody.orderly.install installed
      sized := retains.sized.trans custody.sized
      seated := ?_
      held := ?_ }
  · intro klass classId binding
    rcases retains.bound klass classId binding with old | seated
    · exact (custody.seated klass classId old).retains retains
    · exact seated
  · intro codeId taken runs
    rcases installed.runs runs with ⟨rfl, rfl⟩ | runs
    · exact ⟨classId, klass, own, holder, assigned, .inl binding⟩
    · obtain ⟨other, keeper, own, holder, assigned, kept⟩ := custody.held codeId taken runs
      refine ⟨other, keeper, own, holder, assigned, ?_⟩
      rcases kept with kept | spare
      · exact .inl (retains.bindings keeper other kept)
      · exact .inr spare

/-- A live class that loses its binding leaves its code behind. -/
theorem unbind (custody : Custody image (fun _ => False) state) (klass : ClassRef) :
    Custody image (fun classId => state.binding? klass = some classId) (state.unbind klass) where
  orderly := custody.orderly
  sized := custody.sized
  seated other classId bound := by
    rw [binding_unbind] at bound
    split at bound
    · cases bound
    · exact custody.seated other classId bound
  held codeId code runs := by
    obtain ⟨classId, keeper, own, holder, assigned, kept⟩ := custody.held codeId code runs
    refine ⟨classId, keeper, own, holder, assigned, ?_⟩
    by_cases same : keeper = klass
    · subst same
      exact .inr (kept.resolve_right id)
    · rw [binding_unbind, if_neg same]
      exact .inl (kept.resolve_right id)

/-- A class that is not bound can be dropped from the metaspace. -/
theorem drop (custody : Custody image spared before) (unbound : before.binding? klass = none)
    (dropped : Drop klass before after) :
    Custody image spared after ∧ after.binding? klass = none := by
  cases dropped with
  | slot =>
    refine ⟨?_, unbound⟩
    refine
      { orderly := custody.orderly
        sized := custody.sized
        seated := ?_
        held := custody.held }
    intro other classId bound
    obtain ⟨entry, index, loader, known, slot, held, taken⟩ := custody.seated other classId bound
    have apart : other ≠ klass := by
      rintro rfl
      exact Option.some_ne_none _ (bound.symm.trans unbound)
    exact ⟨entry, index, loader, known, slot, Got.replaceIf_get apart held, taken⟩

theorem spare {more : Nat → Prop} (custody : Custody image spared state)
    (fewer : ∀ classId, spared classId → more classId) : Custody image more state where
  orderly := custody.orderly
  sized := custody.sized
  seated := custody.seated
  held codeId code runs := by
    obtain ⟨classId, klass, own, holder, assigned, kept⟩ := custody.held codeId code runs
    exact ⟨classId, klass, own, holder, assigned, kept.imp_right (fewer classId)⟩

/-- Custody is restored once no code of the spared classes runs. -/
theorem restore (custody : Custody image spared state)
    (idle : ∀ classId codeId code, spared classId → image.Assigns codeId classId →
      ¬state.Runs codeId code) : Custody image (fun _ => False) state where
  orderly := custody.orderly
  sized := custody.sized
  seated := custody.seated
  held codeId code runs := by
    obtain ⟨classId, klass, own, holder, assigned, kept⟩ := custody.held codeId code runs
    refine ⟨classId, klass, own, holder, assigned, ?_⟩
    rcases kept with bound | spare
    · exact .inl bound
    · exact absurd runs (idle classId codeId code spare assigned)

end Custody

end Changes

end Heap

end Precompiled
