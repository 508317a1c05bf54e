import Precompiled.Bytes
import Precompiled.Digest

/-! The declared shape of a class and its fingerprint. Compiled code may rely
on everything a shape records, so the shape is written as bytes in a way that
loses nothing and the fingerprint is a digest of those bytes. -/
namespace Precompiled

structure FieldShape where
  name : String
  descriptor : String
  isStatic : Bool
  deriving DecidableEq, Repr

structure MethodShape where
  name : String
  signature : String
  deriving DecidableEq, Repr

/-- The declared shape of a class; lists are in declaration order. -/
structure Shape where
  name : String
  superclass : Option String := none
  interfaces : List String := []
  fields : List FieldShape := []
  methods : List MethodShape := []
  deriving DecidableEq, Repr

namespace Shape

/-- A text behind its 32-bit byte count. -/
def countedText (text : String) : Bytes :=
  let bytes := textBytes text
  littleEndian 4 bytes.length ++ bytes

/-- A list behind its 32-bit length. -/
def countedList (encode : α → Bytes) (items : List α) : Bytes :=
  littleEndian 4 items.length ++ items.flatMap encode

def fieldBytes (field : FieldShape) : Bytes :=
  countedText field.name ++ countedText field.descriptor ++ [if field.isStatic then 1 else 0]

def methodBytes (method : MethodShape) : Bytes :=
  countedText method.name ++ countedText method.signature

def superclassBytes : Option String → Bytes
  | none => [0]
  | some name => 1 :: countedText name

/-- The canonical bytes of a shape: every text and list behind its length, an
absent superclass told apart from one with an empty name. -/
def canonicalBytes (shape : Shape) : Bytes :=
  countedText shape.name ++ superclassBytes shape.superclass ++
    countedList countedText shape.interfaces ++ countedList fieldBytes shape.fields ++
    countedList methodBytes shape.methods

/-- The first eight digest bytes of the canonical bytes, as a little-endian
word. -/
def fingerprint (shape : Shape) : UInt64 :=
  UInt64.ofNat (ofLittleEndian ((Digest.sha256 shape.canonicalBytes).take 8))

end Shape

end Precompiled
