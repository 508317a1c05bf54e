import Precompiled.Blob.BuildSettings
import Precompiled.Blob.Record

/-! A draft describes what a blob is to hold before any byte is laid out:
classes with their compiled methods, stubs, the names behind the reference
slots and the engine routines the code calls. Adding to a draft hands out the
number under which the new part is known. -/
namespace Precompiled.Blob

/-- One method to be compiled into the blob. -/
structure MethodDraft where
  name : String
  signature : String
  /-- Bytes of instructions after the code id. -/
  codeSize : UInt32 := 32
  /-- Entry points, relative to the first instruction. -/
  entryOffset : UInt32 := 0
  verifiedEntryOffset : UInt32 := 0
  frameSize : UInt32 := 16
  /-- Descriptors of the method's metadata slots. -/
  metadata : List String := []
  /-- Metaspace slots the code reads. -/
  classRefs : List UInt32 := []
  /-- Heap-object slots the code reads. -/
  objectRefs : List UInt32 := []
  deriving DecidableEq, Repr, Inhabited

/-- One piece of code: a method of the class `holder`, or a stub of none. -/
structure CodeDraft where
  holder : String
  method : MethodDraft
  deriving DecidableEq, Repr, Inhabited

/-- One class, with the ids of its own code and of the code that assumes its
shape. -/
structure ClassDraft where
  name : String
  fingerprint : UInt64
  gotIndex : Nat
  methods : List Nat := []
  dependents : List UInt32 := []
  deriving DecidableEq, Repr, Inhabited

structure Draft where
  settings : BuildSettings
  engineVersion : String
  classes : List ClassDraft := []
  codes : List CodeDraft := []
  /-- Code ids of the stubs. -/
  stubs : List Nat := []
  metaspaceNames : List String := []
  objectNames : List String := []
  routines : List String := []
  deriving DecidableEq, Repr, Inhabited

namespace Draft

/-- The metaspace slot of the class `name`, shared by all who ask for it. -/
def addMetaspaceSlot (draft : Draft) (name : String) : Draft × Nat :=
  match draft.metaspaceNames.findIdx? (· == name) with
  | some index => (draft, index)
  | none =>
    ({ draft with metaspaceNames := draft.metaspaceNames ++ [name] }, draft.metaspaceNames.length)

/-- A new class, known by the next class number; its metaspace slot is made
with it. -/
def addClass (draft : Draft) (name : String) (fingerprint : UInt64) : Draft × Nat :=
  let (draft, gotIndex) := draft.addMetaspaceSlot name
  ({ draft with classes := draft.classes ++ [{ name, fingerprint, gotIndex }] },
    draft.classes.length)

/-- A method of the class with number `classId`, known by the next code id. -/
def addMethod (draft : Draft) (classId : Nat) (method : MethodDraft) : Draft × Nat :=
  let codeId := draft.codes.length
  let holder := (draft.classes[classId]?.map ClassDraft.name).getD ""
  ({ draft with
      codes := draft.codes ++ [{ holder, method }]
      classes := draft.classes.modify classId fun owner =>
        { owner with methods := owner.methods ++ [codeId] } },
    codeId)

/-- A stub, known by the next code id. It has neither holder nor signature. -/
def addStub (draft : Draft) (name : String) (codeSize : UInt32) : Draft × Nat :=
  let codeId := draft.codes.length
  ({ draft with
      codes := draft.codes ++ [{ holder := "", method := { name, signature := "", codeSize } }]
      stubs := draft.stubs ++ [codeId] },
    codeId)

/-- Records that `codeId` assumes the shape of a class. -/
def addDependent (draft : Draft) (classId : Nat) (codeId : UInt32) : Draft :=
  { draft with
      classes := draft.classes.modify classId fun target =>
        { target with dependents := target.dependents ++ [codeId] } }

/-- A heap-object slot of its own for `descriptor`. -/
def addObjectSlot (draft : Draft) (descriptor : String) : Draft × Nat :=
  ({ draft with objectNames := draft.objectNames ++ [descriptor] }, draft.objectNames.length)

/-- A routine of the engine that the code calls. -/
def addRoutine (draft : Draft) (routine : String) : Draft :=
  { draft with routines := draft.routines ++ [routine] }

end Draft

end Precompiled.Blob
