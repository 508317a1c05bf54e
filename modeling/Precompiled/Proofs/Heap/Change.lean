import Precompiled.Proofs.Heap.Task

/-! The steps that work on a heap is made of. Whatever a task does to a heap
between two questions is a row of these, each a change of one kind with the facts
that the code has checked before it. -/
namespace Precompiled.Heap

/-- The answers of the engine among all answers. -/
def engineHeard (heard : surroundings.Heard) : Engine.signature.Heard :=
  fun request answer => heard (.engine request) answer

section Facts

variable (image : Image)

/-- The metaspace slot at an index stands for the class of a name. -/
def StandsFor (index : Nat) (name : String) : Prop :=
  image.library.metaspaceName index = .ok name ∨
    ∃ entry, lookupClass image name = .ok (some entry) ∧
      natural? entry.record.gotIndex = some index

/-- A live class is what a class of the blob was compiled for. -/
structure Matches (entry : ClassEntry) (view : ClassView) : Prop where
  found : lookupClass image view.name = .ok (some entry)
  fresh : view.redefined = false
  fingerprint : entry.record.fingerprint = view.fingerprint
  assertions : (image.library.settings.omitAssertions && view.assertionsEnabled) = false

/-- Code of a class of the blob, linked for a live class. -/
structure Linked (entry : ClassEntry) (holder : ClassRef) (code : LinkedCode) : Prop where
  known : image.classEntry? entry.classId = some entry
  placed : ∃ records record detail name live,
    image.library.methodsOf entry.record = .ok records ∧ record ∈ records ∧
    image.library.detailOf record = .ok detail ∧ image.library.methodName record = .ok name ∧
    image.place record detail name (some live) (some holder) (some entry.classId) = .ok code

end Facts

/-! ## Executable code -/

section Executable

variable {state : State} {slot : Slot} {code : LinkedCode} {codeId : Nat}

theorem executable_some :
    slot.executable = some code ↔ slot.phase = .resolved ∧ slot.handle = some code := by
  simp [Slot.executable]

/-- Executable code is what a resolved slot holds. -/
theorem executable?_some : state.executable? codeId = some code ↔
    ∃ slot : Slot, state.slots[codeId]? = some slot ∧ slot.phase = .resolved ∧
      slot.handle = some code := by
  simp only [State.executable?, Option.bind_eq_some_iff, executable_some]

end Executable

/-! ## Single changes -/

/-- A slot of a reference table receives its first value. -/
inductive Fill (image : Image) (heard : Engine.signature.Heard) : State → State → Prop where
  | metaspace {state : State} {index : Nat} {name : String} {loader : LoaderId} {klass : ClassRef}
    (named : StandsFor image index name) (told : heard (.findClass name loader) (some klass)) :
    Fill image heard state { state with metaspace := (Got.setIfNull index klass state.metaspace).2 }
  | metadata {state : State} {codeId localIndex index : Nat} {descriptor : String}
    {holder : ClassView} {value : MetadataRef}
    (named : metadataSlot image codeId localIndex = .ok (descriptor, index))
    (told : heard (.resolveMetadata descriptor holder) (some value)) :
    Fill image heard state { state with metadata := (Got.setIfNull index value state.metadata).2 }
  | object {state : State} {index : Nat} {descriptor : String} {value : ObjectRef}
    (named : image.library.objectName index = .ok descriptor)
    (told : heard (.resolveObject descriptor) (some value)) :
    Fill image heard state { state with objects := (Got.setIfNull index value state.objects).2 }

/-- What linking does to a heap without a question: it fills reference tables.
Besides, code from `source` could become the handle of a slot that is resolved
and yet has none, but no slot of a heap ever is. -/
inductive Link (image : Image) (source : LinkedCode → Prop) (heard : Engine.signature.Heard) :
    State → State → Prop where
  | fill {before after : State} (filled : Fill image heard before after) :
    Link image source heard before after
  | stray {state : State} {code : LinkedCode} {slot : Slot} (known : source code)
    (found : state.slots[code.codeId]? = some slot) (resolved : slot.phase = .resolved)
    (free : slot.handle = none) :
    Link image source heard state
      { state with slots := state.slots.set code.codeId (slot.publish code).2 }

/-- A slot goes out of use and nobody has to be told. -/
inductive Revoke : State → State → Prop where
  | retire {state : State} {codeId : Nat} {slot : Slot} (found : state.slots[codeId]? = some slot) :
    Revoke state { state with slots := state.slots.set codeId slot.retire.2 }
  | invalidate {state : State} {codeId : Nat} {slot : Slot}
    (found : state.slots[codeId]? = some slot)
    (idle : ∀ code, slot.executable = some code → code.isStub) :
    Revoke state { state with slots := state.slots.set codeId slot.invalidate.2 }

/-- The collector has its way with a heap-object slot. -/
inductive Relocate (moved : ObjectRef → Option ObjectRef → Prop) : State → State → Prop where
  | slot {state : State} {index : Nat} {object : ObjectRef} {value : Option ObjectRef}
    (said : moved object value) :
    Relocate moved state
      { state with objects := Got.replaceIf index object value state.objects }

/-- A metaspace slot lets go of a live class. -/
inductive Drop (klass : ClassRef) : State → State → Prop where
  | slot {state : State} {index : Nat} :
    Drop klass state { state with metaspace := Got.replaceIf index klass none state.metaspace }

/-- A piece of code becomes the code of its free slot and is admitted. -/
inductive Install (image : Image) (code : LinkedCode) : State → State → Prop where
  | slot {state : State} {slot : Slot} (found : state.slots[code.codeId]? = some slot)
    (unresolved : slot.phase = .unresolved) (free : slot.handle = none) :
    Install image code state
      (State.admitCode image code
        { state with slots := state.slots.set code.codeId (slot.publish code).2 }).2

/-- Executable code that is no stub goes out of use. -/
inductive Deoptimize (code : LinkedCode) : State → State → Prop where
  | slot {state : State} {codeId : Nat} {slot : Slot} (found : state.slots[codeId]? = some slot)
    (executable : slot.executable = some code) (method : code.isStub = false) :
    Deoptimize code state { state with slots := state.slots.set codeId slot.invalidate.2 }

/-! ## What a call does -/

/-- Where the code that a call installs comes from. -/
inductive Source (image : Image) : Call → LinkedCode → Prop where
  | given (code : LinkedCode) : Source image (.publish code) code
  | linked {view : ClassView} {entry : ClassEntry} {code : LinkedCode}
    (linked : Linked image entry view.klass code) : Source image (.loadClass view) code

/-- The live class that a call presents to be bound. -/
inductive Presents : Call → ClassView → Prop where
  | loadClass (view : ClassView) : Presents (.loadClass view) view
  | resolveClass (view : ClassView) : Presents (.resolveClass view) view

/-- The changes that a call makes without a question. -/
inductive Change (image : Image) (call : Call) (heard : Engine.signature.Heard) :
    State → State → Prop where
  | link {before after : State} (linked : Link image (Source image call) heard before after) :
    Change image call heard before after
  | revoke {before after : State} (revoked : Revoke before after) :
    Change image call heard before after
  | refuse {state : State} {entry : ClassEntry} {view : ClassView}
    (fits : Matches image entry view) (taken : (claimPlace entry view state).1 = false) :
    Change image call heard state (claimPlace entry view state).2
  | bind {state : State} {entry : ClassEntry} {view : ClassView}
    (presented : Presents call view) (fits : Matches image entry view)
    (unbound : boundEntry image state view.klass = none)
    (claimed : (claimPlace entry view state).1 = true) :
    Change image call heard state ((claimPlace entry view state).2.bind view.klass entry.classId)
  | unbind {state : State} {klass : ClassRef}
    (gone : call = .flush klass ∨ call = .unload klass) :
    Change image call heard state (state.unbind klass)
  | drop {before after : State} {klass : ClassRef} (gone : call = .unload klass)
    (dropped : Drop klass before after) : Change image call heard before after
  | relocate {before after : State} {moves : List (ObjectRef × Option ObjectRef)}
    (collected : call = .updateObjects moves)
    (relocated : Relocate (fun object value => value = Got.moved moves object) before after) :
    Change image call heard before after
  | routines {state : State} (addresses : List Nat) :
    Change image call heard state
      { state with routines := some (state.routines.getD addresses) }
  | disable {state : State} :
    Change image call heard state { state with linkageDisabled := true }
  | count {state : State} {code : LinkedCode} (given : call = .admitCode code) :
    Change image call heard state (state.admitCode image code).2

/-- The changes that lead to a question, where only code from `source` is
installed. -/
inductive Ask (image : Image) (source : LinkedCode → Prop) :
    Engine.Request → State → State → Prop where
  | findClass {state : State} (name : String) (loader : LoaderId) :
    Ask image source (.findClass name loader) state state
  | findMethod {state : State} (holder : ClassRef) (name : MethodName) :
    Ask image source (.findMethod holder name) state state
  | resolveMetadata {state : State} (descriptor : String) (holder : ClassView) :
    Ask image source (.resolveMetadata descriptor holder) state state
  | resolveObject {state : State} (descriptor : String) :
    Ask image source (.resolveObject descriptor) state state
  | findRoutine {state : State} (name : String) :
    Ask image source (.findRoutine name) state state
  | install {before after : State} {code : LinkedCode} (known : source code)
    (installed : Install image code before after) :
    Ask image source (.install code) before after
  | deoptimize {before after : State} {code : LinkedCode}
    (deoptimized : Deoptimize code before after) :
    Ask image source (.deoptimize code) before after

theorem Link.widen {image : Image} {source other : LinkedCode → Prop}
    {heard : Engine.signature.Heard} {before after : State}
    (linked : Link image source heard before after)
    (implies : ∀ code, source code → other code) : Link image other heard before after := by
  cases linked with
  | fill filled => exact .fill filled
  | stray known found resolved free => exact .stray (implies _ known) found resolved free

/-- What a sweep may do any call may do. -/
theorem Change.of_sweep {image : Image} {call : Call} {name : String}
    {heard : Engine.signature.Heard} {before after : State}
    (change : Change image (.sweep name) heard before after) :
    Change image call heard before after := by
  cases change with
  | link linked => exact .link (linked.widen fun code known => by cases known)
  | revoke revoked => exact .revoke revoked
  | refuse fits taken => exact .refuse fits taken
  | bind presented => cases presented
  | unbind gone => exact gone.elim nofun nofun
  | drop gone => cases gone
  | relocate collected => cases collected
  | routines addresses => exact .routines addresses
  | disable => exact .disable
  | count given => cases given

theorem Ask.widen {image : Image} {source other : LinkedCode → Prop} {request : Engine.Request}
    {before after : State} (asked : Ask image source request before after)
    (implies : ∀ code, source code → other code) : Ask image other request before after := by
  cases asked with
  | install known installed => exact .install (implies _ known) installed
  | deoptimize deoptimized => exact .deoptimize deoptimized
  | _ => constructor

/-! ## What a task does -/

/-- What a visitor is shown is there when it is shown. -/
inductive Show (task : Task) : Question → State → State → Prop where
  | relocate {state : State} (object : ObjectRef) (collecting : task = .collect) :
    Show task (.relocate object) state state
  | method {state : State} {codeId : Nat} {code : LinkedCode}
    (alive : state.lookup codeId = some code) (walking : task = .methods) :
    Show task (.method code) state state
  | metadata {state : State} {index : Nat} {value : MetadataRef}
    (held : state.metadata.get index = some value) (walking : task = .metadata) :
    Show task (.metadata value) state state
  | entry {state : State} {entry : MetaspaceEntry} (walking : task = .entries) :
    Show task (.entry entry) state state

/-- The changes that a task makes without a question. -/
inductive Task.Change (image : Image) : Task → surroundings.Heard → State → State → Prop where
  | call {call : Call} {heard : surroundings.Heard} {before after : State}
    (change : Heap.Change image call (engineHeard heard) before after) :
    Task.Change image (.call call) heard before after
  | collect {heard : surroundings.Heard} {before after : State}
    (relocated : Relocate (fun object value => heard (.relocate object) value) before after) :
    Task.Change image .collect heard before after

/-- The changes that lead a task to a question. -/
inductive Task.Ask (image : Image) : Task → Question → State → State → Prop where
  | engine {call : Call} {request : Engine.Request} {before after : State}
    (asked : Heap.Ask image (Source image call) request before after) :
    Task.Ask image (.call call) (.engine request) before after
  | visitor {task : Task} {question : Question} {before after : State}
    (shown : Show task question before after) :
    Task.Ask image task question before after

/-! ## As a conduct -/

section Conducts

variable {S : Signature}

/-- A conduct given by what happens to the state. Counters and journal are free
to change. -/
def stateConduct (change : S.Heard → State → State → Prop)
    (question : S.Request → State → State → Prop) (rely : State → State → Prop) :
    Conduct S Cell where
  change heard before after := after.state = before.state ∨ change heard before.state after.state
  question _ request before after := question request before.state after.state
  rely before after := rely before.state after.state

/-- How a call behaves while it resolves references and installs code from
`source`. -/
def linkConduct (image : Image) (source : LinkedCode → Prop) (rely : State → State → Prop) :
    Conduct Engine.signature Cell :=
  stateConduct (Link image source) (Ask image source) rely

/-- How a call behaves while it takes code out of use. -/
def revokeConduct (image : Image) (rely : State → State → Prop) :
    Conduct Engine.signature Cell :=
  stateConduct (fun _ => Revoke) (Ask image fun _ => False) rely

/-- How a call behaves while it clears the metaspace slots of a class. -/
def dropConduct (klass : ClassRef) (rely : State → State → Prop) :
    Conduct Engine.signature Cell :=
  stateConduct (fun _ => Drop klass) (fun _ _ _ => False) rely

/-- How a call that links a live class goes on once the class was matched: like a sweep,
except that it resolves references and installs code from `source`. -/
def matchedConduct (image : Image) (name : String) (source : LinkedCode → Prop)
    (rely : State → State → Prop) : Conduct Engine.signature Cell :=
  stateConduct
    (fun heard before after => Link image source heard before after ∨
      Change image (.sweep name) heard before after)
    (Ask image source) rely

/-- How the call of a heap behaves. -/
def callConduct (image : Image) (call : Call) (rely : State → State → Prop) :
    Conduct Engine.signature Cell :=
  stateConduct (Change image call) (Ask image (Source image call)) rely

end Conducts

/-- How a task of a heap behaves. -/
def taskConduct (image : Image) (task : Task) (rely : State → State → Prop) :
    Conduct surroundings Cell :=
  stateConduct (Task.Change image task) (Task.Ask image task) rely

/-- How the tasks of a heap behave. -/
def customs (image : Image) (rely : State → State → Prop) : (service image).Customs where
  change task := (taskConduct image task rely).change
  question task := (taskConduct image task rely).question
  rely before after := rely before.state after.state
  reply _ _ _ _ := True

end Precompiled.Heap
