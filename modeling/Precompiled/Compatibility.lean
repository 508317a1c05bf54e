import Precompiled.Library
import Precompiled.Settings.EngineSettings

/-! The gate in front of every library: engine version, build settings, and
the pointer shifts on which all libraries of a session have to agree. -/
namespace Precompiled

open Blob

/-- The value of one build setting. -/
inductive SettingValue where
  | flag (value : Bool)
  | number (value : Int32)
  deriving DecidableEq, Repr

def SettingValue.text : SettingValue → String
  | .flag value => if value then "true" else "false"
  | .number value => toString value.toInt

/-- One setting as the blob records it and as the engine has it. -/
structure SettingPair where
  field : String
  blob : SettingValue
  engine : SettingValue

/-- The settings that must be equal, in the order in which they are compared. -/
def comparedSettings (blob : BuildSettings) (engine : EngineSettings) : List SettingPair :=
  [⟨"debug_vm", .flag blob.debugVm, .flag engine.debugVm⟩,
   ⟨"use_compressed_oops", .flag blob.useCompressedOops, .flag engine.useCompressedOops⟩,
   ⟨"use_compressed_class_pointers", .flag blob.useCompressedClassPointers,
     .flag engine.useCompressedClassPointers⟩,
   ⟨"use_g1_gc", .flag blob.useG1Gc, .flag engine.useG1Gc⟩,
   ⟨"use_cms_gc", .flag blob.useCmsGc, .flag engine.useCmsGc⟩,
   ⟨"use_tlab", .flag blob.useTlab, .flag engine.useTlab⟩,
   ⟨"use_biased_locking", .flag blob.useBiasedLocking, .flag engine.useBiasedLocking⟩,
   ⟨"object_alignment", .number blob.objectAlignment, .number engine.objectAlignment⟩,
   ⟨"contended_padding_width", .number blob.contendedPaddingWidth,
     .number engine.contendedPaddingWidth⟩,
   ⟨"fields_allocation_style", .number blob.fieldsAllocationStyle,
     .number engine.fieldsAllocationStyle⟩,
   ⟨"compact_fields", .flag blob.compactFields, .flag engine.compactFields⟩,
   ⟨"enable_contended", .flag blob.enableContended, .flag engine.enableContended⟩,
   ⟨"restrict_contended", .flag blob.restrictContended, .flag engine.restrictContended⟩,
   ⟨"code_segment_size", .number blob.codeSegmentSize, .number engine.codeSegmentSize⟩]

/-- Compares a blob's settings with the engine's; the first difference is
reported. Code of a tiered blob calls a profiler that only a tiered engine
has. -/
def checkSettings (library : String) (blob : BuildSettings) (engine : EngineSettings) :
    Except Error Unit := do
  if blob.recordSize.toInt ≠ settingsSize then
    throw (.setting library "config_size" (toString blob.recordSize.toInt) (toString settingsSize))
  match (comparedSettings blob engine).find? fun pair => pair.blob ≠ pair.engine with
  | some pair => throw (.setting library pair.field pair.blob.text pair.engine.text)
  | none => pure ()
  if !blob.hasSegmentSize then
    throw (.setting library "code_segment_size" (toString blob.codeSegmentSize.toInt)
      "a power of two")
  if blob.tieredAot && !engine.tieredCompilation then
    throw (.setting library "tiered_aot" "true" "false")

/-- The pointer shifts of a session. Each is fixed by the first library that
uses it. -/
structure AgreedShifts where
  narrowOop : Option Int32 := none
  narrowKlass : Option Int32 := none
  deriving DecidableEq, Repr, Inhabited

namespace AgreedShifts

/-- Agrees on one shift: the value already fixed, or else the one at hand. -/
def settle (library field : String) (agreed : Option Int32) (shift : Int32) : Except Error Unit :=
  let expected := agreed.getD shift
  if expected = shift then .ok ()
  else .error (.setting library field (toString shift.toInt) (toString expected.toInt))

/-- Checks a blob's shifts, fixing those that are not fixed yet. What was fixed
stays fixed even if a later check refuses the blob. -/
def agree (library : String) (blob : BuildSettings) (shifts : AgreedShifts) :
    Except Error Unit × AgreedShifts :=
  if !blob.useCompressedOops then (.ok (), shifts)
  else
    let withOop := { shifts with
      narrowOop := some (shifts.narrowOop.getD blob.narrowOopShift) }
    match settle library "narrow_oop_shift" shifts.narrowOop blob.narrowOopShift with
    | .error error => (.error error, withOop)
    | .ok () =>
      if !blob.useCompressedClassPointers then (.ok (), withOop)
      else
        let withBoth := { withOop with
          narrowKlass := some (shifts.narrowKlass.getD blob.narrowKlassShift) }
        (settle library "narrow_klass_shift" shifts.narrowKlass blob.narrowKlassShift, withBoth)

end AgreedShifts

namespace Library

/-- Passes a library through the whole gate. -/
def check (library : Library) (engine : EngineSettings) (shifts : AgreedShifts) :
    Except Error Unit × AgreedShifts :=
  if library.engineVersion ≠ engine.engineVersion then
    (.error (.engineVersion library.name library.engineVersion engine.engineVersion), shifts)
  else
    match checkSettings library.name library.settings engine with
    | .error error => (.error error, shifts)
    | .ok () => shifts.agree library.name library.settings

/-- Passes a library through the gate, marking it unusable if it is refused. -/
def verify (library : Library) (engine : EngineSettings) (shifts : AgreedShifts) :
    Reported (Except Error Unit × Library × AgreedShifts) := do
  match library.check engine shifts with
  | (.ok (), shifts) => return (.ok (), library, shifts)
  | (.error error, shifts) =>
    Reported.note .warn .loading s!"rejecting {library.name}: {error.message}"
    return (.error error, ← library.invalidate, shifts)

end Library

end Precompiled
