import Precompiled.Heap.Registry

/-! Taking code out of use. Compiled code assumes things about classes; the
blob lists, per class, the code that depends on its shape. When a class changes
the listed slots are invalidated, and frames that run their code are told to
leave it. -/
namespace Precompiled.Heap

/-- What a sweep did. -/
structure SweepReport where
  /-- Slots that this sweep moved to invalidated. -/
  invalidated : Nat := 0
  /-- Those of them that held executable code. -/
  deoptimized : Nat := 0
  /-- Slots that were invalidated before. -/
  alreadyInvalidated : Nat := 0
  /-- Stubs that were left alone. -/
  stubsSkipped : Nat := 0
  deriving DecidableEq, Repr, Inhabited

/-- The reports of two sweeps as one. -/
def SweepReport.merge (first second : SweepReport) : SweepReport where
  invalidated := first.invalidated + second.invalidated
  deoptimized := first.deoptimized + second.deoptimized
  alreadyInvalidated := first.alreadyInvalidated + second.alreadyInvalidated
  stubsSkipped := first.stubsSkipped + second.stubsSkipped

variable (image : Image)

/-- The class of the blob that a live class is bound to. -/
def boundEntry (state : State) (klass : ClassRef) : Option ClassEntry :=
  (state.binding? klass).bind image.classEntry?

/-- The class of the blob behind a live class, bound or only known through its
metaspace slot. -/
def entryOf (state : State) (klass : ClassRef) : Option ClassEntry :=
  match boundEntry image state klass with
  | some entry => some entry
  | none =>
    match state.metaspace.resolved.find? fun slot => slot.2 = klass with
    | some (index, _) => image.classOfSlot? index
    | none => none

/-- Whether a piece of code depends on a live class. -/
def isDependent (state : State) (klass : ClassRef) (codeId : Nat) : Bool :=
  match entryOf image state klass with
  | none => false
  | some entry =>
    match image.library.dependentsOf entry.record with
    | .ok dependents => dependents.contains codeId
    | .error _ => false

/-! ## Single slots -/

def countInvalidated : Operation Unit :=
  Operation.count fun counters =>
    { counters with methodsInvalidated := counters.methodsInvalidated + 1 }

/-- Invalidates one slot. If its code was executable the engine is told. -/
def invalidateCode (codeId : Nat) : Operation SweepReport := do
  match ← Operation.changeSlot codeId Slot.invalidate with
  | none => return {}
  | some .stub => return { stubsSkipped := 1 }
  | some .alreadyInvalidated => return { alreadyInvalidated := 1 }
  | some (.invalidated false) =>
    countInvalidated
    return { invalidated := 1 }
  | some (.invalidated true) =>
    countInvalidated
    if let some code ← Operation.look fun state => state.slots[codeId]?.bind Slot.handle then
      Operation.note .trace .deoptimization s!"deoptimizing {code.name.display}"
      Operation.ask (.deoptimize code)
    return { invalidated := 1, deoptimized := 1 }

/-- Invalidates slots one after the other. -/
def invalidateCodes : List Nat → Operation SweepReport
  | [] => return {}
  | codeId :: rest => do
    let report ← invalidateCode codeId
    return report.merge (← invalidateCodes rest)

/-! ## Dependents -/

/-- Invalidates all code that depends on a class. -/
def invalidateDependents (entry : ClassEntry) : Operation SweepReport := do
  match image.library.dependentsOf entry.record with
  | .error error =>
    Operation.note .warn .deoptimization
      s!"dependents of class {entry.classId}: {error.message}"
    return {}
  | .ok dependents =>
    let report ← invalidateCodes dependents
    if 0 < report.invalidated then
      Operation.note .debug .deoptimization (s!"class {entry.classId} of {image.library.name}: " ++
        s!"invalidated {report.invalidated} dependents ({report.deoptimized} deoptimized)")
    return report

/-! ## The code of a class -/

/-- Invalidates those slots of a class whose phase is selected when their turn
comes. -/
def invalidateSelected (select : Slot.Phase → Bool) : List Nat → Operation SweepReport
  | [] => return {}
  | codeId :: rest => do
    let selected ← Operation.look fun state => (state.phase? codeId).any select
    let report ← if selected then invalidateCode codeId else pure {}
    return report.merge (← invalidateSelected select rest)

/-- Invalidates the slots of a class whose phase is selected. -/
def invalidateClass (classId : Nat) (select : Slot.Phase → Bool) : Operation SweepReport :=
  invalidateSelected select (image.codesOf classId)

/-- Retires slots one after the other. -/
def retireCodes : List Nat → Operation Unit
  | [] => return ()
  | codeId :: rest => do
    if (← Operation.changeSlot codeId Slot.retire) = some true then countInvalidated
    retireCodes rest

/-- Retires the unresolved code of a class that can never be linked. -/
def retireClass (classId : Nat) : Operation Unit :=
  retireCodes (image.codesOf classId)

/-- A live class is being redefined: its binding is dropped, and its own
executable code is invalidated together with everything that depends on it. -/
def flush (klass : ClassRef) : Operation SweepReport := do
  match ← Operation.look fun state => entryOf image state klass with
  | none => return {}
  | some entry =>
    Operation.alter fun state => state.unbind klass
    let dependents ← invalidateDependents image entry
    let own ← invalidateClass image entry.classId fun phase => phase == .resolved
    let report := dependents.merge own
    Operation.note .info .deoptimization
      (s!"redefinition of class {entry.classId} in {image.library.name}: " ++
        s!"{report.invalidated} methods invalidated")
    return report

/-- A live class was unloaded: its binding is dropped, every metaspace slot
that holds it is cleared, and its code is invalidated together with everything
that depends on it. -/
def unload (klass : ClassRef) : Operation SweepReport := do
  let entry ← Operation.look fun state => entryOf image state klass
  Operation.alter fun state => state.unbind klass
  let _ ← Got.updateEach Cell.metaspace fun _ value =>
    pure (if value = klass then none else some value)
  match entry with
  | none => return {}
  | some entry =>
    let dependents ← invalidateDependents image entry
    let own ← invalidateClass image entry.classId fun phase => phase != .invalidated
    let report := dependents.merge own
    Operation.note .debug .deoptimization
      (s!"unloaded class {entry.classId} of {image.library.name}: " ++
        s!"{report.invalidated} methods invalidated")
    return report

end Precompiled.Heap
