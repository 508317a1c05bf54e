import Precompiled.Journal

/-! Counters of what linking did. The heaps of a session share one set. -/
namespace Precompiled

structure Counters where
  /-- Classes looked up in some library. -/
  classesExamined : Nat := 0
  /-- Classes bound to precompiled code. -/
  classesFound : Nat := 0
  /-- Classes refused because their shape changed. -/
  fingerprintMisses : Nat := 0
  /-- Classes refused because another loader owns the binding. -/
  classloaderMisses : Nat := 0
  methodsPublished : Nat := 0
  methodsInvalidated : Nat := 0
  /-- References that could not be resolved. -/
  unresolvedReferences : Nat := 0
  deriving DecidableEq, Repr, Inhabited

namespace Counters

/-- What is reported about classes. -/
def classSummary (counters : Counters) : String :=
  s!"AOT classes: examined={counters.classesExamined} found={counters.classesFound} " ++
    s!"fingerprint_miss={counters.fingerprintMisses} " ++
    s!"classloader_miss={counters.classloaderMisses}"

/-- What is reported about methods. -/
def methodSummary (counters : Counters) : String :=
  s!"AOT methods: published={counters.methodsPublished} " ++
    s!"invalidated={counters.methodsInvalidated} " ++
    s!"unresolved_refs={counters.unresolvedReferences}"

/-- Reports the counters in two lines. -/
def summarize (counters : Counters) : Reported Unit := do
  Reported.note .info .loading counters.classSummary
  Reported.note .info .loading counters.methodSummary

end Counters

end Precompiled
