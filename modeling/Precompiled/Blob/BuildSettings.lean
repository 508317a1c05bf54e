import Precompiled.Blob.Cursor
import Precompiled.Blob.Writer

/-! The build settings recorded in a blob. Generated code hard-wires them, in
how it decodes pointers, where it finds fields and which barriers it calls, so
a blob is usable only on an engine that runs with the same values. -/
namespace Precompiled.Blob

/-- Size of the settings record: seven words, twelve flag bytes and padding. -/
def settingsSize : Nat := 48

/-- Padding after the flag bytes; read without being looked at, written as
zeros. -/
def settingsPadding : Nat := settingsSize - 7 * 4 - 12

structure BuildSettings where
  /-- Size of this record as the compiler saw it. -/
  recordSize : Int32 := 48
  narrowOopShift : Int32 := 3
  narrowKlassShift : Int32 := 3
  contendedPaddingWidth : Int32 := 128
  fieldsAllocationStyle : Int32 := 1
  objectAlignment : Int32 := 8
  /-- Bytes of code that one byte of the segment map stands for. -/
  codeSegmentSize : Int32 := 64
  debugVm : Bool := false
  useCompressedOops : Bool := true
  useCompressedClassPointers : Bool := true
  compactFields : Bool := true
  useG1Gc : Bool := true
  useCmsGc : Bool := false
  useTlab : Bool := true
  useBiasedLocking : Bool := false
  /-- The code calls back into the profiler of a tiered engine. -/
  tieredAot : Bool := false
  enableContended : Bool := true
  restrictContended : Bool := true
  /-- Assertions were stripped from the compiled code. -/
  omitAssertions : Bool := false
  deriving DecidableEq, Repr, Inhabited

namespace BuildSettings

/-- Whether the segment size is a positive power of two. -/
def hasSegmentSize (settings : BuildSettings) : Bool :=
  decide (0 < settings.codeSegmentSize) &&
    settings.codeSegmentSize &&& (settings.codeSegmentSize - 1) == 0

def decode : Decoder BuildSettings := do
  let recordSize ← Decoder.int32
  let narrowOopShift ← Decoder.int32
  let narrowKlassShift ← Decoder.int32
  let contendedPaddingWidth ← Decoder.int32
  let fieldsAllocationStyle ← Decoder.int32
  let objectAlignment ← Decoder.int32
  let codeSegmentSize ← Decoder.int32
  let debugVm ← Decoder.flag
  let useCompressedOops ← Decoder.flag
  let useCompressedClassPointers ← Decoder.flag
  let compactFields ← Decoder.flag
  let useG1Gc ← Decoder.flag
  let useCmsGc ← Decoder.flag
  let useTlab ← Decoder.flag
  let useBiasedLocking ← Decoder.flag
  let tieredAot ← Decoder.flag
  let enableContended ← Decoder.flag
  let restrictContended ← Decoder.flag
  let omitAssertions ← Decoder.flag
  let _ ← Decoder.bytes settingsPadding
  return { recordSize, narrowOopShift, narrowKlassShift, contendedPaddingWidth,
           fieldsAllocationStyle, objectAlignment, codeSegmentSize, debugVm, useCompressedOops,
           useCompressedClassPointers, compactFields, useG1Gc, useCmsGc, useTlab,
           useBiasedLocking, tieredAot, enableContended, restrictContended, omitAssertions }

def encode (settings : BuildSettings) : Bytes :=
  signed32 settings.recordSize ++ signed32 settings.narrowOopShift ++
    signed32 settings.narrowKlassShift ++ signed32 settings.contendedPaddingWidth ++
    signed32 settings.fieldsAllocationStyle ++ signed32 settings.objectAlignment ++
    signed32 settings.codeSegmentSize ++
    flagByte settings.debugVm ++ flagByte settings.useCompressedOops ++
    flagByte settings.useCompressedClassPointers ++ flagByte settings.compactFields ++
    flagByte settings.useG1Gc ++ flagByte settings.useCmsGc ++ flagByte settings.useTlab ++
    flagByte settings.useBiasedLocking ++ flagByte settings.tieredAot ++
    flagByte settings.enableContended ++ flagByte settings.restrictContended ++
    flagByte settings.omitAssertions ++ List.replicate settingsPadding 0

/-- Settings are always as long as the format says. -/
theorem encode_length (settings : BuildSettings) : settings.encode.length = settingsSize := by
  unfold encode
  simp only [List.length_append, signed32_length, flagByte_length, List.length_replicate,
    settingsPadding, settingsSize]

end BuildSettings

end Precompiled.Blob
