import Precompiled.Proofs.Heap.Provenance
import Precompiled.Proofs.Heap.Restoration

/-! While a live class is away. A class that is not bound stays so, and none of its
code is published, until somebody presents it as a class that was not redefined: a
class that was does not pass the gate, and one that is not bound has to. -/
namespace Precompiled.Heap

variable {image : Image} {before after state : State} {klass : ClassRef} {call : Call}
  {property : LinkedCode → Prop} {α : Type} {operation : Operation α}

/-- A call does not present the live class as one that was not redefined. -/
def Withholds (klass : ClassRef) (call : Call) : Prop :=
  ∀ view, Presents call view → view.klass = klass → view.redefined = true

/-- A live class is not bound, and its code that slots hold has the property. -/
structure Absent (klass : ClassRef) (property : LinkedCode → Prop) (state : State) : Prop where
  orderly : state.Orderly
  unbound : state.binding? klass = none
  every : state.Every fun code => code.holder = some klass → property code

/-! ## Changes -/

theorem claimPlace_bindings (entry : ClassEntry) (view : ClassView) (state : State) :
    (claimPlace entry view state).2.bindings = state.bindings := by
  have bound := (bindLoader_frame entry.classId view.loader state).2.1
  unfold claimPlace
  split
  · rfl
  · split
    · rfl
    · dsimp only
      split <;> exact bound

theorem Link.bindings {source : LinkedCode → Prop} {heard : Engine.signature.Heard}
    (linked : Link image source heard before after) : after.bindings = before.bindings := by
  cases linked with
  | fill filled => cases filled <;> rfl
  | stray known found resolved free => rfl

theorem Ask.bindings {source : LinkedCode → Prop} {request : Engine.Request}
    (asked : Ask image source request before after) : after.bindings = before.bindings := by
  cases asked with
  | install known installed => exact installed.frame.2.2
  | deoptimize deoptimized =>
    cases deoptimized
    rfl
  | _ => rfl

/-- Unless a live class goes, bindings change only where one is bound that was not. -/
theorem Change.bindings {heard : Engine.signature.Heard}
    (change : Change image call heard before after) (flush : ∀ klass, call ≠ .flush klass)
    (unload : ∀ klass, call ≠ .unload klass) : after.bindings = before.bindings ∨
      ∃ entry view, Presents call view ∧ Matches image entry view ∧
        boundEntry image before view.klass = none ∧ ∀ klass, after.binding? klass =
          if klass = view.klass then some entry.classId else before.binding? klass := by
  cases change with
  | link linked => exact .inl linked.bindings
  | revoke revoked => cases revoked <;> exact .inl rfl
  | refuse fits taken => exact .inl (claimPlace_bindings _ _ _)
  | bind presented fits unbound claimed =>
    refine .inr ⟨_, _, presented, fits, unbound, fun klass => ?_⟩
    rw [binding_bind, State.binding?, claimPlace_bindings]
    rfl
  | unbind gone =>
    exact gone.elim (fun same => absurd same (flush _)) fun same => absurd same (unload _)
  | drop gone => exact absurd gone (unload _)
  | relocate collected relocated =>
    cases relocated
    exact .inl rfl
  | routines addresses => exact .inl rfl
  | disable => exact .inl rfl
  | count given => exact .inl (admitCode_frame image _ before).2.2

/-- Only a class that was not redefined is bound. -/
theorem Change.unbound {heard : Engine.signature.Heard} (withholds : Withholds klass call)
    (unbound : before.binding? klass = none) (change : Change image call heard before after) :
    after.binding? klass = none := by
  cases change with
  | link linked => rwa [State.binding?, linked.bindings]
  | revoke revoked => cases revoked <;> exact unbound
  | refuse fits taken =>
    rw [State.binding?, claimPlace_bindings]
    exact unbound
  | bind presented fits free claimed =>
    rw [binding_bind]
    split
    · rename_i same
      have redefined := withholds _ presented same.symm
      rw [fits.fresh] at redefined
      cases redefined
    · rw [State.binding?, claimPlace_bindings]
      exact unbound
  | unbind gone =>
    rw [binding_unbind, unbound]
    split <;> rfl
  | drop gone dropped =>
    cases dropped
    exact unbound
  | relocate collected relocated =>
    cases relocated
    exact unbound
  | routines addresses => exact unbound
  | disable => exact unbound
  | count given =>
    rw [State.binding?, (admitCode_frame image _ before).2.2]
    exact unbound

namespace Absent

theorem change {heard : Engine.signature.Heard} (absent : Absent klass property before)
    (withholds : Withholds klass call) (change : Change image call heard before after) :
    Absent klass property after where
  orderly := absent.orderly.touches change.touches
  unbound := change.unbound withholds absent.unbound
  every := absent.every.touches absent.orderly change.touches

theorem ask {source : LinkedCode → Prop} {request : Engine.Request}
    (absent : Absent klass property before)
    (others : ∀ code, source code → code.holder ≠ some klass)
    (asked : Ask image source request before after) : Absent klass property after where
  orderly := by
    rcases asked.touches with ⟨touches, -⟩ | ⟨code, -, -, installed⟩
    · exact absent.orderly.touches touches
    · exact absent.orderly.install installed
  unbound := by
    rw [State.binding?, asked.bindings]
    exact absent.unbound
  every :=
    absent.every.ask absent.orderly (fun code known own => absurd own (others code known)) asked

theorem beside : ∀ before after, Absent klass property before → before.Beside after →
    Absent klass property after :=
  State.Beside.keeps fun _ _ absent => ⟨absent.orderly, absent.unbound, absent.every⟩

end Absent

/-! ## Calls -/

/-- A class stays away while no code of it can be installed. -/
theorem absent_obeys (withholds : Withholds klass call)
    (others : ∀ code, Source image call code → code.holder ≠ some klass)
    {post : α → State → Prop}
    (obeys : operation.Obeys (callConduct image call State.Beside)
      fun _ value cell => post value cell.state) :
    Ensures (Absent klass property) operation fun value state =>
      post value state ∧ Absent klass property state :=
  .of_obeys obeys Absent.beside (fun _ _ _ absent change => absent.change withholds change)
    fun _ _ _ absent asked => absent.ask others asked

theorem absent_keeps (withholds : Withholds klass call)
    (others : ∀ code, Source image call code → code.holder ≠ some klass)
    (follows : operation.Follows (callConduct image call State.Beside)) :
    Ensures (Absent klass property) operation fun _ => Absent klass property := by
  have ensures : Ensures (Absent klass property) operation fun _ state =>
      True ∧ Absent klass property state := absent_obeys withholds others follows
  exact ensures.to_weaker fun _ _ known => known.2

/-- A class that is not bound and was redefined does not pass the gate, and is not
linked. -/
theorem loadClass_turns_away {view : ClassView} (same : view.klass = klass)
    (redefined : view.redefined = true) :
    Ensures (Absent klass property) (loadClass image view) fun _ => Absent klass property := by
  have withholds : Withholds klass (.resolveClass view) := by
    rintro other ⟨⟩ -
    exact redefined
  have others (code : LinkedCode) : Source image (.resolveClass view) code →
      code.holder ≠ some klass := nofun
  have resolved : Ensures (Absent klass property) (resolveClass image view) fun outcome state =>
      (∀ entry, outcome = .ok entry → image.classEntry? entry.classId = some entry ∧
        state.binding? view.klass = some entry.classId) ∧ Absent klass property state :=
    absent_obeys withholds others (resolveClass_obeys (.resolveClass view))
  refine .bind (.look _) fun disabled => ?_
  cases disabled with
  | true => exact .pure _ fun _ holds => holds.1
  | false =>
    refine .bind (resolved.of_stronger fun _ holds => holds.1) fun outcome => ?_
    cases outcome with
    | error miss =>
      have missed : Ensures (Absent klass property) (afterMiss image view miss)
          fun _ => Absent klass property := absent_keeps withholds others (afterMiss_follows miss)
      refine .bind (missed.of_stronger fun _ holds => holds.2) fun _ => ?_
      exact .pure _ fun _ holds => holds
    | ok entry =>
      rintro heard cell ⟨known, absent⟩
      have bound := (known entry rfl).2
      rw [same, absent.unbound] at bound
      cases bound

/-- A class that is away stays away. -/
theorem call_keeps_absent (withholds : Withholds klass call) :
    Ensures (fun state => Absent klass property state ∧
        ∀ code, call = .publish code → state.Holds code.codeId code)
      (perform image call) fun _ => Absent klass property := by
  have quietly (others : ∀ code, Source image call code → code.holder ≠ some klass) :
      Ensures (fun state => Absent klass property state ∧
        ∀ code, call = .publish code → state.Holds code.codeId code)
      (perform image call) fun _ => Absent klass property := by
    have keeps : Ensures (Absent klass property) (perform image call)
        fun _ => Absent klass property := absent_keeps withholds others (perform_follows call)
    exact keeps.of_stronger fun _ holds => holds.1
  cases call with
  | publish code =>
    have orderly (state : State) (absent : Absent klass property state) : state.Orderly :=
      absent.orderly
    exact (publish_keeps orderly code).of_stronger fun _ holds => ⟨holds.1, holds.2 code rfl⟩
  | loadClass view =>
    by_cases same : view.klass = klass
    · have redefined := withholds view (.loadClass view) same
      exact (loadClass_turns_away same redefined).of_stronger fun _ holds => holds.1
    · apply quietly
      intro code known own
      cases known with
      | linked linked =>
        rw [linked.owned.2] at own
        exact same (Option.some.inj own)
  | _ => exact quietly nofun

end Precompiled.Heap
