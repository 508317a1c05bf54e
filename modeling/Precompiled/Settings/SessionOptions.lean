import Precompiled.Settings.Fields

/-! Options of a session of loaded libraries. -/
namespace Precompiled

structure SessionOptions where
  /-- Load libraries at all. -/
  enabled : Bool := true
  /-- Report a rejected library as an error instead of skipping it. -/
  strictLoading : Bool := false
  /-- Report the counters when the session ends. -/
  printStatistics : Bool := false
  /-- Compare the stored checksum with the contents on load. -/
  verifyChecksum : Bool := true
  deriving DecidableEq, Repr, Inhabited

namespace SessionOptions

open Settings

/-- The fields in the order of their declaration. -/
def fields : List (NamedField SessionOptions) :=
  [.flag "enabled" (·.enabled) fun value options => { options with enabled := value },
   .flag "strict_loading" (·.strictLoading)
     fun value options => { options with strictLoading := value },
   .flag "print_statistics" (·.printStatistics)
     fun value options => { options with printStatistics := value },
   .flag "verify_checksum" (·.verifyChecksum)
     fun value options => { options with verifyChecksum := value }]

/-- The options a JSON text describes. -/
def ofJson? (text : String) : Option SessionOptions :=
  Settings.ofJson? fields {} text

instance : Inspect SessionOptions := ⟨inspectFields fields⟩

end SessionOptions

end Precompiled
