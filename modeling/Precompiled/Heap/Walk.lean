import Precompiled.Heap.References

/-! Walks over a heap for a visitor that may call back into it. A walk holds on
to nothing: each stop is looked at when its turn comes, so the visitor is never
shown what was taken out of use earlier in the same walk. -/
namespace Precompiled.Heap

variable {S : Signature} {ι α : Type}

/-- Shows the visitor what is found at each stop when its turn comes. -/
def visitEach (look : State → ι → Option α) (visit : α → Action S Cell Unit) :
    List ι → Action S Cell Unit
  | [] => return ()
  | stop :: rest => do
    match ← Action.read fun cell : Cell => look cell.state stop with
    | some found => visit found
    | none => pure ()
    visitEach look visit rest

/-- Shows the executable methods in slot order; stubs are left out. -/
def visitMethods (visit : LinkedCode → Action S Cell Unit) : Action S Cell Unit := do
  let count ← Action.read fun cell : Cell => cell.state.slots.length
  visitEach State.lookup visit (List.range count)

/-- Shows the values of the metadata slots that executable methods own. -/
def visitMetadata (visit : MetadataRef → Action S Cell Unit) : Action S Cell Unit :=
  visitMethods fun code =>
    visitEach (fun state index => state.metadata.get index) visit code.metadataSlots

/-- Shows every resolved metaspace and metadata slot. -/
def visitEntries (visit : MetaspaceEntry → Action S Cell Unit) : Action S Cell Unit := do
  let classes ← Action.read fun cell : Cell => cell.state.metaspace.size
  visitEach (fun state index => state.metaspace.get index) (fun klass => visit (.klass klass))
    (List.range classes)
  let metadata ← Action.read fun cell : Cell => cell.state.metadata.size
  visitEach (fun state index => state.metadata.get index) (fun value => visit (.metadata value))
    (List.range metadata)

end Precompiled.Heap
