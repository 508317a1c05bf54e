import Precompiled.Settings.Fields

/-! What the running engine says about itself. A blob is usable only where its
recorded build settings agree with these values. -/
namespace Precompiled

structure EngineSettings where
  /-- Build identifier of the engine; a blob names the one it was made for. -/
  engineVersion : String := "0.2.0"
  /-- The engine compiles in tiers. -/
  tieredCompilation : Bool := false
  debugVm : Bool := false
  useCompressedOops : Bool := true
  useCompressedClassPointers : Bool := true
  compactFields : Bool := true
  useG1Gc : Bool := true
  useCmsGc : Bool := false
  useTlab : Bool := true
  useBiasedLocking : Bool := false
  objectAlignment : Int32 := 8
  contendedPaddingWidth : Int32 := 128
  fieldsAllocationStyle : Int32 := 1
  enableContended : Bool := true
  restrictContended : Bool := true
  codeSegmentSize : Int32 := 64
  deriving DecidableEq, Repr, Inhabited

namespace EngineSettings

open Settings

/-- The fields in the order of their declaration. -/
def fields : List (NamedField EngineSettings) :=
  [.text "engine_version" (·.engineVersion)
     fun value settings => { settings with engineVersion := value },
   .flag "tiered_compilation" (·.tieredCompilation)
     fun value settings => { settings with tieredCompilation := value },
   .flag "debug_vm" (·.debugVm) fun value settings => { settings with debugVm := value },
   .flag "use_compressed_oops" (·.useCompressedOops)
     fun value settings => { settings with useCompressedOops := value },
   .flag "use_compressed_class_pointers" (·.useCompressedClassPointers)
     fun value settings => { settings with useCompressedClassPointers := value },
   .flag "compact_fields" (·.compactFields)
     fun value settings => { settings with compactFields := value },
   .flag "use_g1_gc" (·.useG1Gc) fun value settings => { settings with useG1Gc := value },
   .flag "use_cms_gc" (·.useCmsGc) fun value settings => { settings with useCmsGc := value },
   .flag "use_tlab" (·.useTlab) fun value settings => { settings with useTlab := value },
   .flag "use_biased_locking" (·.useBiasedLocking)
     fun value settings => { settings with useBiasedLocking := value },
   .integer "object_alignment" (·.objectAlignment)
     fun value settings => { settings with objectAlignment := value },
   .integer "contended_padding_width" (·.contendedPaddingWidth)
     fun value settings => { settings with contendedPaddingWidth := value },
   .integer "fields_allocation_style" (·.fieldsAllocationStyle)
     fun value settings => { settings with fieldsAllocationStyle := value },
   .flag "enable_contended" (·.enableContended)
     fun value settings => { settings with enableContended := value },
   .flag "restrict_contended" (·.restrictContended)
     fun value settings => { settings with restrictContended := value },
   .integer "code_segment_size" (·.codeSegmentSize)
     fun value settings => { settings with codeSegmentSize := value }]

/-- The settings a JSON text describes. -/
def ofJson? (text : String) : Option EngineSettings :=
  Settings.ofJson? fields {} text

instance : Inspect EngineSettings := ⟨inspectFields fields⟩

end EngineSettings

end Precompiled
