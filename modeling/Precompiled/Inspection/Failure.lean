import Precompiled.Error
import Precompiled.Inspection.Tree

/-! Failures as trees: the kind of a failure in one word, and its message. -/
namespace Precompiled

def Blob.DecodeError.kind : Blob.DecodeError → String
  | .unexpectedEnd _ _ => "UnexpectedEof"
  | .invalidOffset _ => "InvalidOffset"
  | .invalidText _ => "InvalidUtf8"
  | .invalidFlag _ _ => "InvalidBool"

def Error.kind : Error → String
  | .format _ _ => "FormatMismatch"
  | .malformed _ _ => "Truncated"
  | .engineVersion _ _ _ => "EngineVersionMismatch"
  | .setting _ _ _ _ => "ConfigMismatch"
  | .duplicate _ => "DuplicateLibrary"
  | .missingSymbol _ _ => "MissingSymbol"
  | .invalidLibrary _ => "InvalidLibrary"
  | .missingRoutine _ _ => "MissingRuntimeRoutine"
  | .unresolved _ _ => "UnresolvedReference"
  | .missingFile => "Io"

def Miss.kind : Miss → String
  | .notFound => "NotFound"
  | .fingerprintMismatch => "FingerprintMismatch"
  | .classloaderMismatch => "ClassloaderMismatch"
  | .redefined => "Redefined"
  | .assertionsEnabled => "AssertionsEnabled"
  | .linkageDisabled => "LinkageDisabled"

instance : Inspect Blob.DecodeError :=
  ⟨fun error => .record [("error", .text error.kind), ("message", .text error.message)]⟩

/-- The message of a missing file is the operating system's and is not shown. -/
instance : Inspect Error
  where inspect
    | .missingFile => .record [("error", .text Error.missingFile.kind)]
    | error => .record [("error", .text error.kind), ("message", .text error.message)]

instance : Inspect Miss :=
  ⟨fun miss => .record [("miss", .text miss.kind), ("text", .text miss.text)]⟩

end Precompiled
