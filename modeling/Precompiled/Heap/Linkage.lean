import Precompiled.Heap.References
import Precompiled.Heap.Revocation

/-! Linking live classes. A live class is matched to its record by name and
then has to pass a gate: it was not redefined, its fingerprint is the recorded
one, assertions agree, and no other class or loader holds its place. Once it is
bound its methods are published, each after everything it refers to was
resolved. -/
namespace Precompiled.Heap

variable (image : Image)

/-- The class of the blob exported under a name, or what is wrong with its
record. -/
def lookupClass (name : String) : Except Error (Option ClassEntry) := do
  match ← image.library.findClassRecord name with
  | none => return none
  | some record => return image.classEntry? record.classId.toUInt32.toNat

/-- The class of the blob exported under a name; a bad record is reported and
counts as absent. -/
def findClass (name : String) : Operation (Option ClassEntry) := do
  match lookupClass image name with
  | .ok entry => return entry
  | .error error =>
    Operation.note .warn .classes s!"bad class record for {name}: {error.message}"
    return none

/-- Whether a class may take its place: its metaspace slot is free or already
its own, and no other loader has bound the class of the blob. Passing the test
binds the loader and fills the slot. -/
def claimPlace (entry : ClassEntry) (view : ClassView) (state : State) : Bool × State :=
  match natural? entry.record.gotIndex with
  | none => (false, state)
  | some index =>
    if (state.metaspace.get index).any (· ≠ view.klass) then (false, state)
    else
      let (bound, state) := state.bindLoader entry.classId view.loader
      if !bound then (false, state)
      else
        let (value, metaspace) := Got.setIfNull index view.klass state.metaspace
        (value == some view.klass, { state with metaspace })

/-- The gate behind the look-up by name: why the class must not be linked, if
it must not. -/
def gate (entry : ClassEntry) (view : ClassView) : Operation (Option Miss) := do
  if view.redefined then return some .redefined
  else if entry.record.fingerprint ≠ view.fingerprint then
    Operation.count fun counters =>
      { counters with fingerprintMisses := counters.fingerprintMisses + 1 }
    return some .fingerprintMismatch
  else if image.library.settings.omitAssertions && view.assertionsEnabled then
    return some .assertionsEnabled
  else if ← Operation.change (claimPlace entry view) then return none
  else
    Operation.count fun counters =>
      { counters with classloaderMisses := counters.classloaderMisses + 1 }
    return some .classloaderMismatch

/-- Matches a live class that is not bound yet. -/
def bindClass (view : ClassView) : Operation (Except Miss ClassEntry) := do
  Operation.count fun counters =>
    { counters with classesExamined := counters.classesExamined + 1 }
  match ← findClass image view.name with
  | none => return .error .notFound
  | some entry =>
    match ← gate image entry view with
    | some miss =>
      Operation.note .debug .classes s!"{view.name} in {image.library.name}: {miss.text}"
      return .error miss
    | none =>
      Operation.alter fun state => state.bind view.klass entry.classId
      Operation.count fun counters =>
        { counters with classesFound := counters.classesFound + 1 }
      Operation.note .debug .classes (s!"bound {view.name} to class {entry.classId} of " ++
        s!"{image.library.name} (loader {view.loader.toNat})")
      return .ok entry

/-- Matches a live class against the blob. A class that is bound is answered
from its binding. -/
def resolveClass (view : ClassView) : Operation (Except Miss ClassEntry) := do
  match ← Operation.look fun state => boundEntry image state view.klass with
  | some entry => return .ok entry
  | none => bindClass image view

/-- The class of a name through its metaspace slot, resolved on first use from
the loader of `view`. -/
def classFromSlot (name : String) (view : ClassView) : Operation (Option ClassRef) := do
  match ← findClass image name with
  | none => return none
  | some entry =>
    match natural? entry.record.gotIndex with
    | none => return none
    | some index =>
      Got.getOrResolve Cell.metaspace index (Operation.ask (.findClass name view.loader))

/-! ## Routines of the engine -/

/-- Asks for routines one after the other, stopping at the first that is
missing. -/
def findRoutines : List String → Operation (Except Error (List Nat))
  | [] => return .ok []
  | routine :: rest => do
    match ← Operation.ask (.findRoutine routine) with
    | none => return .error (.missingRoutine image.library.name routine)
    | some address =>
      match ← findRoutines rest with
      | .error error => return .error error
      | .ok addresses => return .ok (address :: addresses)

/-- The addresses of all routines the code calls. -/
def linkRoutines : Operation (Except Error (List Nat)) := do
  match image.library.routines with
  | .error error => return .error error
  | .ok routines =>
    match ← findRoutines image routines with
    | .error error => return .error error
    | .ok addresses =>
      Operation.note .debug .loading
        s!"linked {addresses.length} runtime routines for {image.library.name}"
      return .ok addresses

/-- Makes sure that the routines are linked. They are looked up once; a missing
one disables the heap for good. -/
def ensureRoutines : Operation Bool := do
  if ← Operation.look fun state => state.routines.isSome then return true
  else
    match ← linkRoutines image with
    | .ok addresses =>
      Operation.alter fun state =>
        { state with routines := some (state.routines.getD addresses) }
      return true
    | .error error =>
      Operation.note .warn .loading s!"disabling {image.library.name}: {error.message}"
      Operation.alter fun state => { state with linkageDisabled := true }
      return false

/-- The address linked for a routine, by its place in the library's list. -/
def State.routineAddress (state : State) (index : Nat) : Option Nat :=
  state.routines.bind fun addresses => addresses[index]?

/-! ## Methods -/

/-- Runs a step for each item, stopping at the first failure. -/
def forEach (step : α → Operation (Except Error β)) : List α → Operation (Except Error Unit)
  | [] => return .ok ()
  | item :: rest => do
    match ← step item with
    | .error error => return .error error
    | .ok _ => forEach step rest

/-- Resolves everything a piece of code refers to: classes, then metadata, then
objects. -/
def resolveReferences (codeId : Nat) (detail : Blob.CodeDetail) (view : ClassView) :
    Operation (Except Error Unit) := do
  let classes ← forEach (fun index => resolveMetaspace image index.toNat view.loader)
    detail.classRefs
  match classes with
  | .error error => return .error error
  | .ok () =>
    let metadata ← forEach (fun localIndex => resolveMetadata image codeId localIndex view)
      (List.range detail.metadataNames.length)
    match metadata with
    | .error error => return .error error
    | .ok () => forEach (fun index => resolveObject image index.toNat) detail.objectRefs

/-- Names the method, and not the library, as the place of an unresolved
reference. -/
def inMethod (name : MethodName) : Error → Error
  | .unresolved _ reference => .unresolved name.display reference
  | other => other

/-- Resolves what one method refers to and publishes it. The result is false
when there is nothing to do for the method. -/
def publishMethod (entry : ClassEntry) (view : ClassView) (record : Blob.CodeRecord) :
    Operation (Except Error Bool) := do
  let codeId := record.codeId.toUInt32.toNat
  if (← Operation.look fun state => state.phase? codeId) ≠ some .unresolved then
    return .ok false
  else
    match image.library.methodName record with
    | .error error => return .error error
    | .ok name =>
      match ← Operation.ask (.findMethod view.klass name) with
      | none =>
        Operation.note .debug .methods s!"{name.display} has no live method"
        return .ok false
      | some live =>
        if live.hasCode || live.excluded then return .ok false
        else
          match image.library.detailOf record with
          | .error error => return .error error
          | .ok detail =>
            match ← resolveReferences image codeId detail view with
            | .error error => return .error (inMethod name error)
            | .ok () =>
              match image.place record detail name live.method view.klass entry.classId with
              | .error error => return .error error
              | .ok code =>
                match ← publish image code with
                | .published _ => return .ok true
                | _ => return .ok false

/-- Publishes methods one after the other and counts those that became
executable. A failure is reported and does not stop the others. -/
def publishMethods (entry : ClassEntry) (view : ClassView) :
    List Blob.CodeRecord → Operation Nat
  | [] => return 0
  | record :: rest => do
    let published ← publishMethod image entry view record
    let own ← match published with
      | .ok true => pure 1
      | .ok false => pure 0
      | .error error => do
        if let .unresolved _ _ := error then
          Operation.count fun counters =>
            { counters with unresolvedReferences := counters.unresolvedReferences + 1 }
        Operation.note .debug .methods
          s!"not publishing code {record.codeId.toInt}: {error.message}"
        pure 0
    return own + (← publishMethods entry view rest)

/-- Whether a miss means that the class has another shape than the code was
compiled for. -/
def isShapeMiss : Miss → Bool
  | .fingerprintMismatch | .redefined | .assertionsEnabled => true
  | .notFound | .classloaderMismatch | .linkageDisabled => false

/-- What a miss does to the code that assumed the class's shape: dependents are
swept and the class's own unresolved code is retired. -/
def afterMiss (view : ClassView) (miss : Miss) : Operation Unit := do
  if isShapeMiss miss then
    if let some entry ← findClass image view.name then
      let _ ← invalidateDependents image entry
      retireClass image entry.classId

/-- Links a live class and publishes every method the blob holds for it. The
result counts the methods that this call made executable. -/
def loadClass (view : ClassView) : Operation (Except Miss Nat) := do
  if ← Operation.look State.linkageDisabled then return .error .linkageDisabled
  else
    match ← resolveClass image view with
    | .error miss =>
      afterMiss image view miss
      return .error miss
    | .ok entry =>
      if ← ensureRoutines image then
        match image.library.methodsOf entry.record with
        | .error error =>
          Operation.note .warn .classes s!"methods of {view.name}: {error.message}"
          return .ok 0
        | .ok records => return .ok (← publishMethods image entry view records)
      else return .error .linkageDisabled

end Precompiled.Heap
