import Precompiled.Inspection.Heap
import Precompiled.Rehearsal.Basic

/-! Sessions and rehearsals as trees. -/
namespace Precompiled

def SessionOptions.diagnostic (options : SessionOptions) : String :=
  describe "AotCacheConfig"
    [("enabled", describeFlag options.enabled),
     ("strict_loading", describeFlag options.strictLoading),
     ("print_statistics", describeFlag options.printStatistics),
     ("verify_checksum", describeFlag options.verifyChecksum)]

/-- A session on one line. -/
def Session.diagnostic (session : Session) : String :=
  describe "AotCodeCache"
    [("config", session.options.diagnostic), ("heaps", toString session.heaps.length)]

instance : Inspect Session := ⟨fun session => .record [
  ("libraries", inspect (session.heaps.map fun heap =>
    (heap.image.library.id, heap.image.library.name))),
  ("shifts", inspect session.shifts),
  ("stats", inspect session.counters),
  ("debug", .text session.diagnostic),
  ("config", inspect session.options)]⟩

/-- What an address belongs to among the heaps of a session. -/
def Session.addressTree (session : Session) (address : Nat) : Tree :=
  .record [
    ("contains", .flag (session.contains address)),
    ("heap", inspect ((session.findHeap address).map fun heap => heap.image.library.name)),
    ("owner", inspect ((session.findOwner address).map LinkedCode.key))]

namespace Rehearsal

/-- Linked code with its places counted from the start of its library's code. -/
def codeTree (code : LinkedCode) : Tree :=
  let place (address : Nat) : Tree := inspect (address % codeDistance)
  .record [
    ("code_id", inspect code.codeId),
    ("library_id", inspect code.libraryId),
    ("name", .text code.name.display),
    ("method", inspect code.method),
    ("holder", inspect code.holder),
    ("class_id", inspect code.classId),
    ("stub", .flag code.isStub),
    ("begin", place code.start),
    ("end", place code.stop),
    ("entry", place code.entryPoint),
    ("verified_entry", place code.verifiedEntryPoint),
    ("frame_size", inspect code.frameSize),
    ("metadata_got", inspect (code.metadataStart, code.metadataStop))]

/-- A request under the name of its kind. -/
def requestTree (request : Engine.Request) : Tree :=
  let operands : List Tree := match request with
    | .findClass name loader => [.text name, inspect loader]
    | .findMethod holder name => [inspect holder, .text name.display]
    | .resolveMetadata descriptor holder => [.text descriptor, .text holder.name]
    | .resolveObject descriptor => [.text descriptor]
    | .findRoutine name => [.text name]
    | .install code => [inspect code.libraryId, inspect code.codeId]
    | .deoptimize code => [inspect code.libraryId, inspect code.codeId]
  .list (.text (Occasion.of request).label :: operands)

instance : Inspect Event
  where inspect
    | .asked request => requestTree request
    | .intervened _ reply => .list [.text "hook", inspect reply]

end Rehearsal

end Precompiled
