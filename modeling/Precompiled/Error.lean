import Precompiled.Blob.Cursor
import Precompiled.MethodName
import Precompiled.Text.Hex

/-! Why a library is refused and why code cannot be linked. Every failure is a
cause; its wording is computed from the cause in one place. -/
namespace Precompiled

/-- What is wrong with the place or shape of a piece of code. -/
inductive GeometryFault where
  | codeOffset
  | unaligned
  | codeRange
  | entryPoint
  | metadataOffset
  | metadataCount
  | metadataRange
  deriving DecidableEq, Repr

def GeometryFault.text : GeometryFault → String
  | .codeOffset => "code offset"
  | .unaligned => "unaligned code"
  | .codeRange => "code range"
  | .entryPoint => "entry point"
  | .metadataOffset => "metadata GOT offset"
  | .metadataCount => "metadata GOT size"
  | .metadataRange => "metadata GOT range"

/-- What makes the contents of a blob unacceptable. -/
inductive FormatFault where
  /-- The blob is too short to hold a header. -/
  | tooShort (length : Nat)
  | magic (found : Bytes)
  | version (found expected : UInt32)
  | checksum (computed stored : UInt32)
  /-- The segment size is no positive power of two. -/
  | segmentSize (found : Int32)
  /-- Offsets within code of that size do not fit a word. -/
  | codeSize (length : Nat)
  | segmentMap
  | classRecord (classId : Nat)
  | codeId (found : Int32)
  | geometry (fault : GeometryFault) (method : MethodName)
  deriving DecidableEq, Repr

def FormatFault.text : FormatFault → String
  | .tooShort length => s!"blob is only {length} bytes"
  | .magic found => "bad magic " ++ Text.hexList found
  | .version found expected => s!"format version {found.toNat} (expected {expected.toNat})"
  | .checksum computed stored =>
    "checksum " ++ Text.hexPadded 8 computed.toNat ++
      " (stored " ++ Text.hexPadded 8 stored.toNat ++ ")"
  | .segmentSize found => s!"code segment size {found.toInt}"
  | .codeSize length => s!"code section of {length} bytes exceeds 4 GiB"
  | .segmentMap => "segment map does not cover the code"
  | .classRecord classId => s!"corrupt class record {classId}"
  | .codeId found => s!"code id {found.toInt} out of range"
  | .geometry fault method => fault.text ++ " of " ++ method.display

/-- What a slot of linked code refers to. -/
inductive Reference where
  | liveClass (name : String)
  | code (codeId : Nat)
  | metadataSlot (index codeId : Nat)
  | metadata (descriptor : String)
  | object (descriptor : String)
  deriving DecidableEq, Repr

def Reference.text : Reference → String
  | .liveClass name => "class " ++ name
  | .code codeId => s!"code id {codeId}"
  | .metadataSlot index codeId => s!"metadata slot {index} of code {codeId}"
  | .metadata descriptor => "metadata " ++ descriptor
  | .object descriptor => "object " ++ descriptor

/-- A failure while loading, validating or linking a library. -/
inductive Error where
  /-- Bad magic, unknown version or corrupted contents. -/
  | format (library : String) (fault : FormatFault)
  /-- A read through the blob failed. -/
  | malformed (library : String) (cause : Blob.DecodeError)
  /-- The blob was compiled for another engine. -/
  | engineVersion (library found expected : String)
  /-- A build setting differs from the engine's. -/
  | setting (library field blob engine : String)
  /-- A library of that name is already loaded. -/
  | duplicate (library : String)
  /-- A required section is not exported. -/
  | missingSymbol (library symbol : String)
  /-- The library was rejected earlier. -/
  | invalidLibrary (library : String)
  /-- The engine does not provide a routine the code calls. -/
  | missingRoutine (library routine : String)
  /-- A slot could not be resolved on behalf of `site`, a method or a library. -/
  | unresolved (site : String) (reference : Reference)
  /-- The library's file does not exist. -/
  | missingFile
  deriving DecidableEq, Repr

def Error.message : Error → String
  | .format library fault => s!"{library}: format mismatch: {fault.text}"
  | .malformed library cause => s!"{library}: truncated or malformed blob: {cause.message}"
  | .engineVersion library found expected =>
    s!"{library}: compiled for engine {found}, running {expected}"
  | .setting library field blob engine =>
    s!"{library}: configuration mismatch on {field}: blob has {blob}, engine has {engine}"
  | .duplicate library => s!"library {library} is already loaded"
  | .missingSymbol library symbol => s!"{library}: missing symbol {symbol}"
  | .invalidLibrary library => s!"library {library} is not valid"
  | .missingRoutine library routine => s!"{library}: missing runtime routine {routine}"
  | .unresolved site reference => s!"unresolved reference {reference.text} in {site}"
  | .missingFile => "I/O error: No such file or directory (os error 2)"

/-- Why a live class is not linked. These are ordinary outcomes: the engine
falls back to running the class without precompiled code. -/
inductive Miss where
  /-- The blob holds no record of the class. -/
  | notFound
  /-- The class changed its shape since the blob was compiled. -/
  | fingerprintMismatch
  /-- The class is bound to another loader. -/
  | classloaderMismatch
  /-- The live class has been redefined. -/
  | redefined
  /-- Assertions were stripped but are enabled for the class. -/
  | assertionsEnabled
  /-- Linking the engine's routines failed; the heap is unusable. -/
  | linkageDisabled
  deriving DecidableEq, Repr

def Miss.text : Miss → String
  | .notFound => "not found"
  | .fingerprintMismatch => "fingerprint mismatch"
  | .classloaderMismatch => "classloader mismatch"
  | .redefined => "redefined"
  | .assertionsEnabled => "assertions enabled"
  | .linkageDisabled => "linkage disabled"

end Precompiled
