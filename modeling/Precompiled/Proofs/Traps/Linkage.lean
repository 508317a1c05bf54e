import Precompiled.Heap.Linkage
import Precompiled.Proofs.Traps.Revocation

/-! Linking live classes. What a class record says is used as an index only behind a check:
a class id is compared with the table of classes before the table is read, and the slot of
every class was compared with the metaspace table when the heap was created. What a piece
of code refers to may lie outside its table, and is then unresolved. -/
namespace Precompiled.Heap

open Blob Trapping

/-! ## Loaders -/

/-- How the loader of a class is kept: zero as long as there is none. -/
def loaderTag : Option LoaderId → Nat
  | none => 0
  | some loader => loader.toNat + 1

/-- Binds a class of the blob to a loader unless it is bound to another one. -/
def bindTag (classId : Nat) (loader : LoaderId) (state : State) : Trapping (Bool × State) := do
  let tagged ← add loader.toNat 1
  let current ← Trapping.get state.loaders classId
  if loaderTag current = 0 then
    return (true, { state with loaders := state.loaders.set classId (some loader) })
  else return (loaderTag current == tagged, state)

/-- The loader that a class of the blob is bound to. -/
def boundLoader (state : State) (classId : Nat) : Trapping (Option LoaderId) :=
  match state.loaders[classId]? with
  | none => return none
  | some bound => do
    if loaderTag bound = 0 then return none
    else return some (UInt32.ofNat (← sub (loaderTag bound) 1))

namespace Fixture

section Definitions

variable (fixture : Fixture)

/-! ## Classes -/

/-- The class of the blob exported under a name, or what is wrong with its record. -/
def lookupClass (name : String) (state : State) : Trapping (Except Error (Option ClassEntry)) := do
  match ← (fixture.stored.findClassRecord name).run with
  | .error error => return .error error
  | .ok none => return .ok none
  | .ok (some record) => return .ok (← fixture.classEntry? record.classId.toUInt32.toNat state)

def findClass (name : String) : Guarded Engine.signature Cell (Option ClassEntry) := do
  match ← look (fixture.lookupClass name) with
  | .ok entry => return entry
  | .error error =>
    Operation.note .warn .classes s!"bad class record for {name}: {error.message}"
    return none

/-- Whether a class may take its place. A negative slot number is beyond any table. -/
def claimPlace (entry : ClassEntry) (view : ClassView) (state : State) :
    Trapping (Bool × State) := do
  let index := natural? entry.record.gotIndex
  if (index.bind state.metaspace.get).any (· ≠ view.klass) then return (false, state)
  else
    let (bound, state) ← bindTag entry.classId view.loader state
    if !bound then return (false, state)
    else
      match index with
      | none => return (false, state)
      | some index =>
        let (value, metaspace) := Got.setIfNull index view.klass state.metaspace
        return (value == some view.klass, { state with metaspace })

/-- Why the class must not be linked, if it must not. -/
def gate (entry : ClassEntry) (view : ClassView) :
    Guarded Engine.signature Cell (Option Miss) := do
  if view.redefined then return some .redefined
  else if entry.record.fingerprint ≠ view.fingerprint then
    Operation.count fun counters =>
      { counters with fingerprintMisses := counters.fingerprintMisses + 1 }
    return some .fingerprintMismatch
  else if fixture.stored.settings.omitAssertions && view.assertionsEnabled then
    return some .assertionsEnabled
  else if ← change (claimPlace entry view) then return none
  else
    Operation.count fun counters =>
      { counters with classloaderMisses := counters.classloaderMisses + 1 }
    return some .classloaderMismatch

/-- Matches a live class that is not bound yet. -/
def bindClass (view : ClassView) : Guarded Engine.signature Cell (Except Miss ClassEntry) := do
  Operation.count fun counters =>
    { counters with classesExamined := counters.classesExamined + 1 }
  match ← fixture.findClass view.name with
  | none => return .error .notFound
  | some entry =>
    match ← fixture.gate entry view with
    | some miss =>
      Operation.note .debug .classes s!"{view.name} in {fixture.stored.name}: {miss.text}"
      return .error miss
    | none =>
      Operation.alter fun state => state.bind view.klass entry.classId
      Operation.count fun counters =>
        { counters with classesFound := counters.classesFound + 1 }
      Operation.note .debug .classes (s!"bound {view.name} to class {entry.classId} of " ++
        s!"{fixture.stored.name} (loader {view.loader.toNat})")
      return .ok entry

/-- Matches a live class against the blob. -/
def resolveClass (view : ClassView) : Guarded Engine.signature Cell (Except Miss ClassEntry) := do
  match ← look (fixture.boundEntry view.klass) with
  | some entry => return .ok entry
  | none => fixture.bindClass view

/-- The class of a name through its metaspace slot. -/
def classFromSlot (name : String) (view : ClassView) :
    Guarded Engine.signature Cell (Option ClassRef) := do
  match ← fixture.findClass name with
  | none => return none
  | some entry =>
    match natural? entry.record.gotIndex with
    | none => return none
    | some index =>
      (Got.getOrResolve Cell.metaspace index (Operation.ask (.findClass name view.loader)) :
        Operation (Option ClassRef))

/-! ## Routines of the engine -/

/-- The addresses of all routines the code calls. -/
def linkRoutines : Guarded Engine.signature Cell (Except Error (List Nat)) := do
  match ← fixture.stored.routines.run with
  | .error error => return .error error
  | .ok routines =>
    match ← (findRoutines fixture.image routines : Operation (Except Error (List Nat))) with
    | .error error => return .error error
    | .ok addresses =>
      Operation.note .debug .loading
        s!"linked {addresses.length} runtime routines for {fixture.stored.name}"
      return .ok addresses

/-- Makes sure that the routines are linked. -/
def ensureRoutines : Guarded Engine.signature Cell Bool := do
  let linked ← (Operation.look fun state => state.routines.isSome : Operation Bool)
  if linked then return true
  else
    match ← fixture.linkRoutines with
    | .ok addresses =>
      Operation.alter fun state =>
        { state with routines := some (state.routines.getD addresses) }
      return true
    | .error error =>
      Operation.note .warn .loading s!"disabling {fixture.stored.name}: {error.message}"
      Operation.alter fun state => { state with linkageDisabled := true }
      return false

/-! ## References -/

/-- Resolves a metaspace slot to the class it names. -/
def resolveMetaspace (index : Nat) (loader : LoaderId) :
    Guarded Engine.signature Cell (Except Error ClassRef) := do
  match ← (fixture.stored.metaspaceName index).run with
  | .error error => return .error error
  | .ok name =>
    let value ← (Got.getOrResolve Cell.metaspace index (Operation.ask (.findClass name loader)) :
      Operation (Option ClassRef))
    return orUnresolved fixture.image value (.liveClass name)

/-- The descriptor and the table index of a metadata slot of a piece of code. A sum that
does not fit is cut off at the largest word, which is beyond any table. -/
def metadataSlot (codeId localIndex : Nat) : ExceptT Error Trapping (String × Nat) := do
  let some owned := fixture.records[codeId]?.join
    | throw (unresolved fixture.image (.code codeId))
  let detail ← fixture.stored.detailOf owned.record
  let some nameOffset := detail.metadataNames[localIndex]?
    | throw (unresolved fixture.image (.metadataSlot localIndex codeId))
  let descriptor ← fixture.stored.poolName nameOffset
  match natural? owned.record.metadataStart with
  | some start => return (descriptor, start + localIndex)
  | none => throw (unresolved fixture.image (.metadata descriptor))

/-- Resolves a metadata slot of a piece of code in the context of a class. -/
def resolveMetadata (codeId localIndex : Nat) (holder : ClassView) :
    Guarded Engine.signature Cell (Except Error MetadataRef) := do
  match ← (fixture.metadataSlot codeId localIndex).run with
  | .error error => return .error error
  | .ok (descriptor, index) =>
    let value ← (Got.getOrResolve Cell.metadata index
      (Operation.ask (.resolveMetadata descriptor holder)) : Operation (Option MetadataRef))
    return orUnresolved fixture.image value (.metadata descriptor)

/-- Resolves a heap-object slot. -/
def resolveObject (index : Nat) : Guarded Engine.signature Cell (Except Error ObjectRef) := do
  match ← (fixture.stored.objectName index).run with
  | .error error => return .error error
  | .ok descriptor =>
    let value ← (Got.getOrResolve Cell.objects index (Operation.ask (.resolveObject descriptor)) :
      Operation (Option ObjectRef))
    return orUnresolved fixture.image value (.object descriptor)

/-! ## Methods -/

/-- Runs a step for each item, stopping at the first failure. -/
def forEach {α β : Type} (step : α → Guarded Engine.signature Cell (Except Error β)) :
    List α → Guarded Engine.signature Cell (Except Error Unit)
  | [] => return .ok ()
  | item :: rest => do
    match ← step item with
    | .error error => return .error error
    | .ok _ => forEach step rest

/-- Resolves everything a piece of code refers to. -/
def resolveReferences (codeId : Nat) (detail : CodeDetail) (view : ClassView) :
    Guarded Engine.signature Cell (Except Error Unit) := do
  let classes ← forEach (fun index : UInt32 => fixture.resolveMetaspace index.toNat view.loader)
    detail.classRefs
  match classes with
  | .error error => return .error error
  | .ok () =>
    let metadata ← forEach (fun localIndex => fixture.resolveMetadata codeId localIndex view)
      (List.range detail.metadataNames.length)
    match metadata with
    | .error error => return .error error
    | .ok () => forEach (fun index : UInt32 => fixture.resolveObject index.toNat) detail.objectRefs

/-- Resolves what one method refers to and publishes it. -/
def publishMethod (entry : ClassEntry) (view : ClassView) (record : CodeRecord) :
    Guarded Engine.signature Cell (Except Error Bool) := do
  let codeId := record.codeId.toUInt32.toNat
  let phase ← (Operation.look fun state => state.phase? codeId : Operation (Option Slot.Phase))
  if phase ≠ some .unresolved then return .ok false
  else
    match ← (fixture.stored.methodName record).run with
    | .error error => return .error error
    | .ok name =>
      match ← (Operation.ask (.findMethod view.klass name) : Operation (Option LiveMethod)) with
      | none =>
        Operation.note .debug .methods s!"{name.display} has no live method"
        return .ok false
      | some live =>
        if live.hasCode || live.excluded then return .ok false
        else
          match ← (fixture.stored.detailOf record).run with
          | .error error => return .error error
          | .ok detail =>
            match ← fixture.resolveReferences codeId detail view with
            | .error error => return .error (inMethod name error)
            | .ok () =>
              match ← (fixture.place record detail name live.method view.klass entry.classId).run with
              | .error error => return .error error
              | .ok code =>
                match ← fixture.publish code with
                | .published _ => return .ok true
                | _ => return .ok false

/-- Reports why a method was not published. -/
def reportFailure (record : CodeRecord) (error : Error) : Operation Unit := do
  if let .unresolved _ _ := error then
    Operation.count fun counters =>
      { counters with unresolvedReferences := counters.unresolvedReferences + 1 }
  Operation.note .debug .methods s!"not publishing code {record.codeId.toInt}: {error.message}"

/-- Publishes methods one after the other and counts those that became executable. -/
def publishMethods (entry : ClassEntry) (view : ClassView) :
    List CodeRecord → Nat → Guarded Engine.signature Cell Nat
  | [], published => return published
  | record :: rest, published => do
    match ← fixture.publishMethod entry view record with
    | .ok true =>
      let published ← add published 1
      publishMethods entry view rest published
    | .ok false => publishMethods entry view rest published
    | .error error =>
      reportFailure record error
      publishMethods entry view rest published

/-- What a miss does to the code that assumed the class's shape. -/
def afterMiss (view : ClassView) (miss : Miss) : Guarded Engine.signature Cell Unit := do
  if isShapeMiss miss then
    match ← fixture.findClass view.name with
    | none => return ()
    | some entry =>
      let _ ← fixture.invalidateDependents entry
      let _ ← retireClass entry.classId fixture.records.zipIdx 0
      return ()

/-- Links a live class and publishes every method the blob holds for it. -/
def loadClass (view : ClassView) : Guarded Engine.signature Cell (Except Miss Nat) := do
  let disabled ← (Operation.look State.linkageDisabled : Operation Bool)
  if disabled then return .error .linkageDisabled
  else
    match ← fixture.resolveClass view with
    | .error miss =>
      fixture.afterMiss view miss
      return .error miss
    | .ok entry =>
      if ← fixture.ensureRoutines then
        match ← (fixture.stored.methodsOf entry.record).run with
        | .error error =>
          Operation.note .warn .classes s!"methods of {view.name}: {error.message}"
          return .ok 0
        | .ok records => return .ok (← fixture.publishMethods entry view records 0)
      else return .error .linkageDisabled

end Definitions

end Fixture

/-! ## No trap while a class is bound -/

section Loaders

variable {state : State} {classId : Nat}

theorem loaderTag_ne (loader : LoaderId) : ¬loaderTag (some loader) = 0 :=
  Nat.succ_ne_zero _

theorem bindTag_ok (inside : classId < state.loaders.length) (loader : LoaderId) :
    bindTag classId loader state = .ok (state.bindLoader classId loader) := by
  have few := loader.toNat_lt
  have found := List.getElem?_eq_getElem inside
  rw [bindTag, State.bindLoader, State.loader?, found, add_ok (by omega), Outcome.ok_bind, get_ok found,
    Outcome.ok_bind, Option.join_some]
  cases state.loaders[classId] with
  | none => rfl
  | some current =>
    have same : (loaderTag (some current) == loader.toNat + 1) = (current == loader) := by
      rw [Bool.eq_iff_iff, beq_iff_eq, beq_iff_eq, loaderTag, Nat.add_right_cancel_iff,
        UInt32.toNat_inj]
    rw [if_neg (loaderTag_ne _), same]
    rfl

theorem boundLoader_ok (state : State) (classId : Nat) :
    boundLoader state classId = .ok (state.loader? classId) := by
  rw [boundLoader, State.loader?]
  cases state.loaders[classId]? with
  | none => rfl
  | some bound =>
    cases bound with
    | none => rfl
    | some loader =>
      dsimp only
      have back : UInt32.ofNat (loaderTag (some loader) - 1) = loader := UInt32.ofNat_toNat
      rw [if_neg (loaderTag_ne _), sub_ok (Nat.pos_of_ne_zero (loaderTag_ne _)), Outcome.ok_bind, back]
      rfl

end Loaders

/-- The class is one of the blob, under its number. -/
structure Listed (image : Image) (entry : ClassEntry) : Prop where
  inside : entry.classId < image.classCount
  known : image.library.classRecord entry.classId = .ok entry.record

theorem listed_of_entry {image : Image} {classId : Nat} {entry : ClassEntry}
    (found : image.classEntry? classId = some entry) : Listed image entry := by
  rw [Image.classEntry?] at found
  split at found
  next inside =>
    obtain ⟨record, known, rfl⟩ := Option.map_eq_some_iff.mp found
    exact ⟨inside, Outcome.toOption_some.mp known⟩
  next => cases found

namespace Fixture

variable {fixture : Fixture} {state : State} (sound : fixture.Sound)
include sound

theorem lookupClass_ok (intact : state.Intact fixture.image) (name : String) :
    fixture.lookupClass name state = .ok (Heap.lookupClass fixture.image name) := by
  have read : (fixture.stored.findClassRecord name).run =
      .ok (fixture.image.library.findClassRecord name) :=
    sound.stored.findClassRecord_ok name
  rw [Fixture.lookupClass, Heap.lookupClass, read, Outcome.ok_bind]
  cases fixture.image.library.findClassRecord name with
  | error error => rfl
  | ok record =>
    cases record with
    | none => rfl
    | some record =>
      dsimp only
      rw [sound.classEntry_ok intact]
      rfl

theorem findClass_mirrors (name : String) :
    Guarded.Mirrors (Whole fixture.image)
      (fun value result => value = result ∧ ∀ entry, value = some entry → Listed fixture.image entry)
      (fixture.findClass name) (Heap.findClass fixture.image name) := by
  refine Guarded.look_bind (fun cell intact => lookupClass_ok sound intact name) ?_
  rw [Heap.findClass]
  cases found : Heap.lookupClass fixture.image name with
  | error error =>
    refine (keeps_note _ _ _).lift.bind fun _ _ _ => Guarded.mirrors_pure ⟨rfl, ?_⟩
    intro entry same
    cases same
  | ok outcome =>
    refine Guarded.mirrors_pure ⟨rfl, ?_⟩
    rintro entry rfl
    obtain ⟨record, -, found⟩ := Outcome.bind_ok.mp found
    cases record with
    | none => cases found
    | some record => exact listed_of_entry (Except.ok.inj found)

theorem claimPlace_ok (intact : state.Intact fixture.image) {entry : ClassEntry}
    (listed : Listed fixture.image entry) (view : ClassView) :
    Fixture.claimPlace entry view state = .ok (Heap.claimPlace entry view state) := by
  obtain ⟨index, natural⟩ := sound.classes _ _ listed.inside listed.known
  rw [Fixture.claimPlace, Heap.claimPlace, natural]
  dsimp only [Option.bind_some]
  split
  · rfl
  · rw [bindTag_ok (intact.loaders ▸ listed.inside), Outcome.ok_bind]
    generalize state.bindLoader entry.classId view.loader = bound
    obtain ⟨bound, after⟩ := bound
    cases bound <;> rfl

omit sound in
theorem claimPlace_intact {image : Image} (intact : state.Intact image) (entry : ClassEntry)
    (view : ClassView) : (Heap.claimPlace entry view state).2.Intact image := by
  have bound : (state.bindLoader entry.classId view.loader).2.Intact image := by
    unfold State.bindLoader
    split
    · exact intact
    · exact intact.of_same rfl List.length_set rfl
  unfold Heap.claimPlace
  split
  · exact intact
  · split
    · exact intact
    · dsimp only
      split
      · exact bound
      · exact bound.of_same rfl rfl rfl

theorem gate_mirrors {entry : ClassEntry} (listed : Listed fixture.image entry) (view : ClassView) :
    Guarded.Mirrors (Whole fixture.image) (· = ·) (fixture.gate entry view)
      (Heap.gate fixture.image entry view) := by
  unfold Fixture.gate Heap.gate
  split
  · exact Guarded.mirrors_pure rfl
  split
  · exact (keeps_count _).lift.bind fun _ _ _ => Guarded.mirrors_pure rfl
  split
  · rename_i stripped
    rw [if_pos (by exact stripped)]
    exact Guarded.mirrors_pure rfl
  · rename_i kept
    rw [if_neg (by exact kept)]
    have claimed : Guarded.Mirrors (Whole fixture.image) (· = ·)
        (change (Fixture.claimPlace entry view))
        (Operation.change (Heap.claimPlace entry view)) :=
      change_mirrors fun state intact =>
        ⟨claimPlace_ok sound intact listed view, claimPlace_intact intact entry view⟩
    refine claimed.bind ?_
    rintro free _ rfl
    cases free with
    | true => exact Guarded.mirrors_pure rfl
    | false => exact (keeps_count _).lift.bind fun _ _ _ => Guarded.mirrors_pure rfl

omit sound in
theorem bind_keeps {image : Image} (klass : ClassRef) (classId : Nat) :
    (Operation.alter fun state => state.bind klass classId).Keeps (Whole image) :=
  keeps_alter fun _ intact => intact.of_same rfl rfl rfl

theorem bindClass_mirrors (view : ClassView) :
    Guarded.Mirrors (Whole fixture.image) (· = ·) (fixture.bindClass view)
      (Heap.bindClass fixture.image view) := by
  refine (keeps_count _).lift.bind fun _ _ _ => ?_
  refine (findClass_mirrors sound view.name).bind ?_
  rintro entry _ ⟨rfl, listed⟩
  cases entry with
  | none => exact Guarded.mirrors_pure rfl
  | some entry =>
    refine (gate_mirrors sound (listed entry rfl) view).bind ?_
    rintro miss _ rfl
    cases miss with
    | some miss => exact (keeps_note _ _ _).lift.bind fun _ _ _ => Guarded.mirrors_pure rfl
    | none =>
      refine (bind_keeps _ _).lift.bind fun _ _ _ => ?_
      refine (keeps_count _).lift.bind fun _ _ _ => ?_
      exact (keeps_note _ _ _).lift.bind fun _ _ _ => Guarded.mirrors_pure rfl

theorem resolveClass_mirrors (view : ClassView) :
    Guarded.Mirrors (Whole fixture.image) (· = ·) (fixture.resolveClass view)
      (Heap.resolveClass fixture.image view) := by
  have seen : Guarded.Mirrors (Whole fixture.image) (· = ·)
      (look (fixture.boundEntry view.klass))
      (Operation.look fun state => Heap.boundEntry fixture.image state view.klass) :=
    look_mirrors fun _ intact => ⟨_, sound.boundEntry_ok intact view.klass, rfl⟩
  refine seen.bind ?_
  rintro entry _ rfl
  cases entry with
  | some entry => exact Guarded.mirrors_pure rfl
  | none => exact bindClass_mirrors sound view

theorem classFromSlot_mirrors (name : String) (view : ClassView) :
    Guarded.Mirrors (Whole fixture.image) (· = ·) (fixture.classFromSlot name view)
      (Heap.classFromSlot fixture.image name view) := by
  refine (findClass_mirrors sound name).bind ?_
  rintro entry _ ⟨rfl, -⟩
  cases entry with
  | none => exact Guarded.mirrors_pure rfl
  | some entry =>
    cases slot : natural? entry.record.gotIndex with
    | none =>
      simp only [slot]
      exact Guarded.mirrors_pure rfl
    | some index =>
      simp only [slot]
      exact (keeps_metaspace index (keeps_ask _)).lift

/-! ## No trap while the routines are linked -/

omit sound in
theorem findRoutines_keeps (image : Image) (routines : List String) :
    (findRoutines image routines).Keeps (Whole image) := by
  induction routines with
  | nil => exact Action.keeps_pure _
  | cons routine rest ih =>
    refine (keeps_ask _).bind fun address => ?_
    cases address with
    | none => exact Action.keeps_pure _
    | some address =>
      refine ih.bind fun outcome => ?_
      cases outcome <;> exact Action.keeps_pure _

theorem linkRoutines_mirrors :
    Guarded.Mirrors (Whole fixture.image) (· = ·) fixture.linkRoutines
      (Heap.linkRoutines fixture.image) := by
  have read : fixture.stored.routines.run = .ok fixture.image.library.routines :=
    sound.stored.routines_ok
  unfold Fixture.linkRoutines Heap.linkRoutines
  rw [Guarded.evaluate_bind read]
  cases fixture.image.library.routines with
  | error error => exact Guarded.mirrors_pure rfl
  | ok routines =>
    refine (findRoutines_keeps fixture.image routines).lift.bind ?_
    rintro outcome _ rfl
    cases outcome with
    | error error => exact Guarded.mirrors_pure rfl
    | ok addresses => exact (keeps_note _ _ _).lift.bind fun _ _ _ => Guarded.mirrors_pure rfl

theorem ensureRoutines_mirrors :
    Guarded.Mirrors (Whole fixture.image) (· = ·) fixture.ensureRoutines
      (Heap.ensureRoutines fixture.image) := by
  have stored : ∀ addresses : List Nat, (Operation.alter fun state =>
      { state with routines := some (state.routines.getD addresses) }).Keeps
        (Whole fixture.image) :=
    fun _ => keeps_alter fun _ intact => intact.of_same rfl rfl rfl
  have disabled : (Operation.alter fun state =>
      { state with linkageDisabled := true }).Keeps (Whole fixture.image) :=
    keeps_alter fun _ intact => intact.of_same rfl rfl rfl
  refine (keeps_look _).lift.bind ?_
  rintro linked _ rfl
  split
  · exact Guarded.mirrors_pure rfl
  · refine (linkRoutines_mirrors sound).bind ?_
    rintro outcome _ rfl
    cases outcome with
    | ok addresses => exact (stored addresses).lift.bind fun _ _ _ => Guarded.mirrors_pure rfl
    | error error =>
      refine (keeps_note _ _ _).lift.bind fun _ _ _ => ?_
      exact disabled.lift.bind fun _ _ _ => Guarded.mirrors_pure rfl

/-! ## No trap while references are resolved -/

theorem resolveMetaspace_mirrors {index : Nat} (few : index < 2 ^ 32) (loader : LoaderId) :
    Guarded.Mirrors (Whole fixture.image) (· = ·) (fixture.resolveMetaspace index loader)
      (Heap.resolveMetaspace fixture.image index loader) := by
  have read : (fixture.stored.metaspaceName index).run =
      .ok (fixture.image.library.metaspaceName index) :=
    sound.stored.metaspaceName_ok few
  unfold Fixture.resolveMetaspace Heap.resolveMetaspace
  rw [Guarded.evaluate_bind read]
  cases fixture.image.library.metaspaceName index with
  | error error => exact Guarded.mirrors_pure rfl
  | ok name =>
    refine (keeps_metaspace index (keeps_ask _)).lift.bind ?_
    rintro value _ rfl
    exact Guarded.mirrors_pure rfl

theorem resolveObject_mirrors {index : Nat} (few : index < 2 ^ 32) :
    Guarded.Mirrors (Whole fixture.image) (· = ·) (fixture.resolveObject index)
      (Heap.resolveObject fixture.image index) := by
  have read : (fixture.stored.objectName index).run =
      .ok (fixture.image.library.objectName index) :=
    sound.stored.objectName_ok few
  unfold Fixture.resolveObject Heap.resolveObject
  rw [Guarded.evaluate_bind read]
  cases fixture.image.library.objectName index with
  | error error => exact Guarded.mirrors_pure rfl
  | ok descriptor =>
    refine (keeps_objects index (keeps_ask _)).lift.bind ?_
    rintro value _ rfl
    exact Guarded.mirrors_pure rfl

theorem metadataSlot_ok (codeId localIndex : Nat) :
    fixture.metadataSlot codeId localIndex =
      .ok (Heap.metadataSlot fixture.image codeId localIndex) := by
  have found : fixture.image.record? codeId = fixture.records[codeId]?.join := rfl
  refine Evaluates.eq ?_
  unfold Fixture.metadataSlot Heap.metadataSlot
  rw [found]
  cases fixture.records[codeId]?.join with
  | none => exact .error _
  | some owned =>
    refine (Evaluates.of_eq (sound.stored.detailOf_ok owned.record)).bind ?_
    rintro detail _ - rfl
    cases detail.metadataNames[localIndex]? with
    | none => exact .error _
    | some nameOffset =>
      refine (Evaluates.of_eq (sound.stored.poolName_ok nameOffset)).bind ?_
      rintro descriptor _ - rfl
      cases natural? owned.record.metadataStart with
      | none => exact .error _
      | some start => exact .ok rfl

theorem resolveMetadata_mirrors (codeId localIndex : Nat) (holder : ClassView) :
    Guarded.Mirrors (Whole fixture.image) (· = ·) (fixture.resolveMetadata codeId localIndex holder)
      (Heap.resolveMetadata fixture.image codeId localIndex holder) := by
  have found : (fixture.metadataSlot codeId localIndex).run =
      .ok (Heap.metadataSlot fixture.image codeId localIndex) :=
    metadataSlot_ok sound codeId localIndex
  unfold Fixture.resolveMetadata Heap.resolveMetadata
  rw [Guarded.evaluate_bind found]
  cases Heap.metadataSlot fixture.image codeId localIndex with
  | error error => exact Guarded.mirrors_pure rfl
  | ok slot =>
    refine (keeps_metadata slot.2 (keeps_ask _)).lift.bind ?_
    rintro value _ rfl
    exact Guarded.mirrors_pure rfl

omit sound in
theorem forEach_mirrors {image : Image} {α β : Type}
    {step : α → Guarded Engine.signature Cell (Except Error β)}
    {plain : α → Operation (Except Error β)} {items : List α}
    (each : ∀ item, Guarded.Mirrors (Whole image) (· = ·) (step item) (plain item)) :
    Guarded.Mirrors (Whole image) (· = ·) (forEach step items) (Heap.forEach plain items) := by
  induction items with
  | nil => exact Guarded.mirrors_pure rfl
  | cons item rest ih =>
    refine (each item).bind ?_
    rintro outcome _ rfl
    cases outcome with
    | error error => exact Guarded.mirrors_pure rfl
    | ok value => exact ih

theorem resolveReferences_mirrors (codeId : Nat) (detail : CodeDetail) (view : ClassView) :
    Guarded.Mirrors (Whole fixture.image) (· = ·) (fixture.resolveReferences codeId detail view)
      (Heap.resolveReferences fixture.image codeId detail view) := by
  refine (forEach_mirrors fun index : UInt32 =>
    resolveMetaspace_mirrors sound index.toNat_lt view.loader).bind ?_
  rintro classes _ rfl
  cases classes with
  | error error => exact Guarded.mirrors_pure rfl
  | ok =>
    refine (forEach_mirrors fun localIndex =>
      resolveMetadata_mirrors sound codeId localIndex view).bind ?_
    rintro metadata _ rfl
    cases metadata with
    | error error => exact Guarded.mirrors_pure rfl
    | ok => exact forEach_mirrors fun index : UInt32 => resolveObject_mirrors sound index.toNat_lt

/-! ## No trap while methods are published -/

theorem publishMethod_mirrors (entry : ClassEntry) (view : ClassView) (record : CodeRecord) :
    Guarded.Mirrors (Whole fixture.image) (· = ·) (fixture.publishMethod entry view record)
      (Heap.publishMethod fixture.image entry view record) := by
  have named : (fixture.stored.methodName record).run =
      .ok (fixture.image.library.methodName record) :=
    sound.stored.methodName_ok record
  have detailed : (fixture.stored.detailOf record).run =
      .ok (fixture.image.library.detailOf record) :=
    sound.stored.detailOf_ok record
  refine (keeps_look _).lift.bind ?_
  rintro phase _ rfl
  split
  · exact Guarded.mirrors_pure rfl
  rw [Guarded.evaluate_bind named]
  cases fixture.image.library.methodName record with
  | error error => exact Guarded.mirrors_pure rfl
  | ok name =>
    refine (keeps_ask _).lift.bind ?_
    rintro answer _ rfl
    cases answer with
    | none => exact (keeps_note _ _ _).lift.bind fun _ _ _ => Guarded.mirrors_pure rfl
    | some live =>
      dsimp only
      split
      · exact Guarded.mirrors_pure rfl
      rw [Guarded.evaluate_bind detailed]
      cases fixture.image.library.detailOf record with
      | error error => exact Guarded.mirrors_pure rfl
      | ok detail =>
        refine (resolveReferences_mirrors sound _ detail view).bind ?_
        rintro references _ rfl
        cases references with
        | error error => exact Guarded.mirrors_pure rfl
        | ok =>
          dsimp only
          have placed := @Sound.place_evaluates fixture record detail name live.method view.klass
            entry.classId sound
          rcases placed.outcome with ⟨error, refused, plain⟩ | ⟨code, _, done, plain, rfl, contained⟩
          · rw [Guarded.evaluate_bind refused, plain]
            exact Guarded.mirrors_pure rfl
          · rw [Guarded.evaluate_bind done, plain]
            refine (sound.publish_mirrors contained).bind ?_
            rintro publication _ rfl
            cases publication <;> exact Guarded.mirrors_pure rfl

omit sound in
theorem reportFailure_keeps (image : Image) (record : CodeRecord) (error : Error) :
    (reportFailure record error).Keeps (Whole image) := by
  unfold reportFailure
  split
  · exact (keeps_count _).bind fun _ => keeps_note _ _ _
  · exact keeps_note _ _ _

omit sound in
/-- Each method is published and reported before the next one. -/
theorem publishMethods_cons (image : Image) (entry : ClassEntry) (view : ClassView)
    (record : CodeRecord) (rest : List CodeRecord) :
    Heap.publishMethods image entry view (record :: rest) = (do
      match ← Heap.publishMethod image entry view record with
      | .ok done => return done.toNat + (← Heap.publishMethods image entry view rest)
      | .error error =>
        reportFailure record error
        return 0 + (← Heap.publishMethods image entry view rest)) := by
  rw [Heap.publishMethods]
  refine congrArg _ (funext fun outcome => ?_)
  cases outcome with
  | ok done => cases done <;> rfl
  | error error => cases error <;> rfl

/-- Published methods are counted without a trap: there are no more of them than records. -/
theorem publishMethods_mirrors (entry : ClassEntry) (view : ClassView) (records : List CodeRecord)
    {published : Nat} (room : published + records.length < 2 ^ 64) :
    Guarded.Mirrors (Whole fixture.image) (fun value result => value = published + result)
      (fixture.publishMethods entry view records published)
      (Heap.publishMethods fixture.image entry view records) := by
  induction records generalizing published with
  | nil => exact Guarded.mirrors_pure rfl
  | cons record rest ih =>
    rw [List.length_cons] at room
    rw [publishMethods_cons]
    refine (publishMethod_mirrors sound entry view record).bind ?_
    rintro outcome _ rfl
    cases outcome with
    | error error =>
      refine (reportFailure_keeps _ record error).lift.bind fun _ _ _ => ?_
      exact (ih (by omega)).view fun value result same => by omega
    | ok done =>
      cases done with
      | false => exact (ih (by omega)).view fun value result same => by simp only [Bool.toNat_false]; omega
      | true =>
        dsimp only
        rw [Guarded.evaluate_bind (add_ok (by omega))]
        exact (ih (by omega)).view fun value result same => by simp only [Bool.toNat_true]; omega

theorem afterMiss_mirrors (view : ClassView) (miss : Miss) :
    Guarded.Mirrors (Whole fixture.image) (· = ·) (fixture.afterMiss view miss)
      (Heap.afterMiss fixture.image view miss) := by
  unfold Fixture.afterMiss Heap.afterMiss
  split
  · refine (findClass_mirrors sound view.name).bind ?_
    rintro entry _ ⟨rfl, -⟩
    cases entry with
    | none => exact Guarded.mirrors_pure rfl
    | some entry =>
      refine (invalidateDependents_mirrors sound entry).bind fun _ _ _ => ?_
      have few := records_few sound
      have retired := @retireClass_mirrors fixture.image entry.classId fixture.records.zipIdx 0 (by omega)
      exact retired.forget
  · exact Guarded.mirrors_pure rfl

theorem loadClass_mirrors (view : ClassView) :
    Guarded.Mirrors (Whole fixture.image) (· = ·) (fixture.loadClass view)
      (Heap.loadClass fixture.image view) := by
  refine (keeps_look _).lift.bind ?_
  rintro disabled _ rfl
  split
  · exact Guarded.mirrors_pure rfl
  refine (resolveClass_mirrors sound view).bind ?_
  rintro outcome _ rfl
  cases outcome with
  | error miss =>
    refine (afterMiss_mirrors sound view miss).bind fun _ _ _ => Guarded.mirrors_pure rfl
  | ok entry =>
    refine (ensureRoutines_mirrors sound).bind ?_
    rintro linked _ rfl
    split
    · have read : (fixture.stored.methodsOf entry.record).run =
          .ok (fixture.image.library.methodsOf entry.record) :=
        sound.stored.methodsOf_ok entry.record
      rw [Guarded.evaluate_bind read]
      cases listed : fixture.image.library.methodsOf entry.record with
      | error error => exact (keeps_note _ _ _).lift.bind fun _ _ _ => Guarded.mirrors_pure rfl
      | ok records =>
        have short := Library.methodsOf_short listed
        refine (publishMethods_mirrors sound entry view records (by omega)).bind ?_
        intro published result same
        rw [Nat.zero_add] at same
        exact Guarded.mirrors_pure (congrArg Except.ok same)
    · exact Guarded.mirrors_pure rfl

end Fixture

end Precompiled.Heap
