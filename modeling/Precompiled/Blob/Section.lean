/-! The sections every blob exports through its symbol table. -/
namespace Precompiled.Blob

inductive Section where
  | settings
  | code
  | segments
  | classes
  | codeRecords
  | codeDetails
  | dependents
  | metaspaceNames
  | objectNames
  | stubs
  | routines
  deriving DecidableEq, Repr

namespace Section

/-- The symbol under which a section is exported. -/
def symbol : Section → String
  | .settings => "raya.aot.config"
  | .code => "raya.aot.code"
  | .segments => "raya.aot.code.segments"
  | .classes => "raya.aot.klasses"
  | .codeRecords => "raya.aot.methods"
  | .codeDetails => "raya.aot.method.meta"
  | .dependents => "raya.aot.dependencies"
  | .metaspaceNames => "raya.aot.metaspace.names"
  | .objectNames => "raya.aot.oop.names"
  | .stubs => "raya.aot.stubs"
  | .routines => "raya.aot.runtime.links"

/-- All sections, in the order in which the required ones are listed. -/
def all : List Section :=
  [.settings, .code, .segments, .classes, .codeRecords, .codeDetails, .dependents,
   .metaspaceNames, .objectNames, .stubs, .routines]

end Section

end Precompiled.Blob
