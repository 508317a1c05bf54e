import Precompiled.Handle
import Precompiled.MethodName

/-! Code that has been made ready to run: a method of a live class, or a stub
of the engine, with its place in memory. -/
namespace Precompiled

structure LinkedCode where
  /-- Index of the code's slot within its library. -/
  codeId : Nat
  /-- The library the code belongs to. -/
  libraryId : Nat
  name : MethodName
  /-- The live method; stubs have none. -/
  method : Option MethodRef
  /-- The live class that holds the method; stubs have none. -/
  holder : Option ClassRef
  /-- Number within the blob of the class that holds the method. -/
  classId : Option Nat
  /-- Address of the first byte, which belongs to the code id in front. -/
  start : Nat
  /-- Size in bytes, the code id included. -/
  size : Nat
  entryOffset : Nat
  verifiedEntryOffset : Nat
  frameSize : Nat
  /-- First and one past the last metadata slot of the code. -/
  metadataStart : Nat
  metadataStop : Nat
  deriving DecidableEq, Repr

namespace LinkedCode

/-- Stubs have no live method, and they are never invalidated. -/
def isStub (code : LinkedCode) : Bool :=
  code.method.isNone

/-- One past the last byte. -/
def stop (code : LinkedCode) : Nat :=
  code.start + code.size

/-- Whether an address lies inside the code. -/
def contains (code : LinkedCode) (address : Nat) : Bool :=
  decide (code.start ≤ address) && decide (address < code.stop)

def entryPoint (code : LinkedCode) : Nat :=
  code.start + code.entryOffset

def verifiedEntryPoint (code : LinkedCode) : Nat :=
  code.start + code.verifiedEntryOffset

/-- The metadata slots of the code, in order. -/
def metadataSlots (code : LinkedCode) : List Nat :=
  List.range' code.metadataStart (code.metadataStop - code.metadataStart)

end LinkedCode

end Precompiled
