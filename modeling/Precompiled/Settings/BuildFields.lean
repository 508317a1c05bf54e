import Precompiled.Blob.BuildSettings
import Precompiled.Settings.Fields

/-! The build settings of a blob as named fields. A description may leave out
what it does not want to change. -/
namespace Precompiled.Blob.BuildSettings

open Settings

/-- The fields in the order of their declaration. -/
def fields : List (NamedField BuildSettings) :=
  [.integer "config_size" (·.recordSize)
     fun value settings => { settings with recordSize := value },
   .integer "narrow_oop_shift" (·.narrowOopShift)
     fun value settings => { settings with narrowOopShift := value },
   .integer "narrow_klass_shift" (·.narrowKlassShift)
     fun value settings => { settings with narrowKlassShift := value },
   .integer "contended_padding_width" (·.contendedPaddingWidth)
     fun value settings => { settings with contendedPaddingWidth := value },
   .integer "fields_allocation_style" (·.fieldsAllocationStyle)
     fun value settings => { settings with fieldsAllocationStyle := value },
   .integer "object_alignment" (·.objectAlignment)
     fun value settings => { settings with objectAlignment := value },
   .integer "code_segment_size" (·.codeSegmentSize)
     fun value settings => { settings with codeSegmentSize := value },
   .flag "debug_vm" (·.debugVm) fun value settings => { settings with debugVm := value },
   .flag "use_compressed_oops" (·.useCompressedOops)
     fun value settings => { settings with useCompressedOops := value },
   .flag "use_compressed_class_pointers" (·.useCompressedClassPointers)
     fun value settings => { settings with useCompressedClassPointers := value },
   .flag "compact_fields" (·.compactFields)
     fun value settings => { settings with compactFields := value },
   .flag "use_g1_gc" (·.useG1Gc) fun value settings => { settings with useG1Gc := value },
   .flag "use_cms_gc" (·.useCmsGc) fun value settings => { settings with useCmsGc := value },
   .flag "use_tlab" (·.useTlab) fun value settings => { settings with useTlab := value },
   .flag "use_biased_locking" (·.useBiasedLocking)
     fun value settings => { settings with useBiasedLocking := value },
   .flag "tiered_aot" (·.tieredAot) fun value settings => { settings with tieredAot := value },
   .flag "enable_contended" (·.enableContended)
     fun value settings => { settings with enableContended := value },
   .flag "restrict_contended" (·.restrictContended)
     fun value settings => { settings with restrictContended := value },
   .flag "omit_assertions" (·.omitAssertions)
     fun value settings => { settings with omitAssertions := value }]

/-- The build settings a JSON text describes. -/
def ofJson? (text : String) : Option BuildSettings :=
  Settings.ofJson? fields {} text

instance : Inspect BuildSettings := ⟨inspectFields fields⟩

end Precompiled.Blob.BuildSettings
