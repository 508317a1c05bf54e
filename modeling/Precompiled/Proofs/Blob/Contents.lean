import Precompiled.Proofs.Blob.Pool

/-! The sections of a blob in terms of the draft and the finished name pool.
The assembler threads the pool through all sections; since a text never moves,
every record can be written down with the offsets of the pool that ends up in
the blob. -/
namespace Precompiled.Blob

open NamePool

/-! ## Pieces laid end to end -/

theorem runningOffsets_get (sizes : List Nat) (start index : Nat) (inside : index < sizes.length) :
    (runningOffsets start sizes)[index]? = some (start + (sizes.take index).sum) := by
  induction sizes generalizing start index with
  | nil => simp at inside
  | cons size rest ih =>
    cases index with
    | zero => simp [runningOffsets]
    | succ index =>
      simp only [List.length_cons] at inside
      rw [runningOffsets, List.getElem?_cons_succ, ih (start + size) index (by omega),
        List.take_succ_cons, List.sum_cons, Nat.add_assoc]

@[simp] theorem runningOffsets_length (sizes : List Nat) (start : Nat) :
    (runningOffsets start sizes).length = sizes.length := by
  induction sizes generalizing start with
  | nil => rfl
  | cons size rest ih => simp [runningOffsets, ih]

/-- Where the piece with a given number starts among pieces laid end to end. -/
def startOf (pieces : List Bytes) (index : Nat) : Nat :=
  ((pieces.map List.length).take index).sum

theorem runningOffsets_pieces (pieces : List Bytes) (start index : Nat)
    (inside : index < pieces.length) :
    (runningOffsets start (pieces.map List.length))[index]? = some (start + startOf pieces index) :=
  runningOffsets_get _ _ _ (by simpa using inside)

theorem holds_flatten {pieces : List Bytes} {index : Nat} {piece : Bytes}
    (found : pieces[index]? = some piece) :
    Holds pieces.flatten (startOf pieces index) piece := by
  induction pieces generalizing index with
  | nil => simp at found
  | cons first rest ih =>
    cases index with
    | zero =>
      obtain rfl : first = piece := by simpa using found
      exact ⟨[], rest.flatten, by simp, rfl⟩
    | succ index =>
      rw [List.getElem?_cons_succ] at found
      obtain ⟨before, after, split, length⟩ := ih found
      refine ⟨first ++ before, after, by simp [split], ?_⟩
      simp only [List.length_append, length, startOf, List.map_cons, List.take_succ_cons,
        List.sum_cons]

/-- A piece starts no later than the pieces end. -/
theorem startOf_le (pieces : List Bytes) (index : Nat) :
    startOf pieces index ≤ pieces.flatten.length := by
  have whole := congrArg List.sum (List.take_append_drop index (pieces.map List.length))
  simp only [List.sum_append] at whole
  rw [startOf, List.length_flatten]
  omega

/-! ## Records in terms of a pool -/

namespace Draft

/-- The detail of a piece of code, with its names where the pool has them. -/
def detailIn (pool : NamePool) (code : CodeDraft) : CodeDetail where
  codeSize := codeHeaderSize + code.method.codeSize
  entryOffset := codeHeaderSize + code.method.entryOffset
  verifiedEntryOffset := codeHeaderSize + code.method.verifiedEntryOffset
  frameSize := code.method.frameSize
  metadataNames := code.method.metadata.map fun descriptor =>
    Int32.ofNat (pool.offsetOf [descriptor])
  classRefs := code.method.classRefs
  objectRefs := code.method.objectRefs

/-- Holder, name and signature, as they are interned together. -/
def nameParts (code : CodeDraft) : List String :=
  [code.holder, code.method.name, code.method.signature]

/-- The record of a placed piece of code, with its name where the pool has it. -/
def recordIn (pool : NamePool) (code : PlacedCode) : CodeRecord where
  nameOffset := Int32.ofNat (pool.offsetOf (nameParts code.draft))
  codeOffset := Int32.ofNat code.codeOffset
  detailOffset := Int32.ofNat code.detailOffset
  metadataStart := Int32.ofNat code.metadataStart
  metadataCount := Int32.ofNat code.draft.method.metadata.length
  codeId := Int32.ofNat code.codeId

/-- The name offsets of a table of texts, as the pool has them. -/
def nameTableIn (pool : NamePool) (names : List String) : Bytes :=
  names.flatMap fun name => signed32 (Int32.ofNat (pool.offsetOf [name]))

variable (draft : Draft)

def detailsIn (pool : NamePool) : List Bytes :=
  (draft.codes.map fun code => detailIn pool code).map CodeDetail.encode

def placedIn (pool : NamePool) : List PlacedCode :=
  draft.placeCodes (draft.detailsIn pool)

/-- The records of the given code ids. -/
def recordsIn (pool : NamePool) (codeIds : List Nat) : List CodeRecord :=
  (codeIds.filterMap fun codeId => (draft.placedIn pool)[codeId]?).map (recordIn pool)

def methodGroupsIn (pool : NamePool) : List Bytes :=
  draft.classes.map fun owner => group ((draft.recordsIn pool owner.methods).map CodeRecord.encode)

def stubRecordsIn (pool : NamePool) : List Bytes :=
  (draft.recordsIn pool draft.stubs).map CodeRecord.encode

def dependentGroups : List Bytes :=
  draft.classes.map fun target => group (target.dependents.map word32)

/-- All sections that mention texts, with the texts where the pool has them. -/
def contentsIn (pool : NamePool) : Contents where
  details := (draft.detailsIn pool).flatten
  records := (draft.methodGroupsIn pool).flatten ++ (draft.stubRecordsIn pool).flatten
  dependents := draft.dependentGroups.flatten
  classes := draft.classRecords (draft.methodGroupsIn pool) draft.dependentGroups
  metaspaceNames := nameTableIn pool draft.metaspaceNames
  objectNames := nameTableIn pool draft.objectNames
  stubs := signed32List ((runningOffsets (draft.methodGroupsIn pool).flatten.length
    ((draft.stubRecordsIn pool).map List.length)).map Int32.ofNat)
  routines := word32 (UInt32.ofNat draft.routines.length) ++ nameTableIn pool draft.routines

/-! ## What the sections mention -/

/-- The texts that the details of a piece of code mention. -/
def descriptorTexts (code : CodeDraft) : List (List String) :=
  code.method.metadata.map fun descriptor => [descriptor]

/-- The names of the pieces of code with the given ids. -/
def recordTexts (codeIds : List Nat) : List (List String) :=
  (codeIds.filterMap fun codeId => draft.codes[codeId]?).map nameParts

def tableTexts (names : List String) : List (List String) :=
  names.map fun name => [name]

/-- All texts that the sections mention, in the order of the sections. -/
def texts : List (List String) :=
  draft.codes.flatMap descriptorTexts ++
    (draft.classes.flatMap (fun owner => draft.recordTexts owner.methods) ++
      (draft.recordTexts draft.stubs ++ (tableTexts draft.metaspaceNames ++
        (tableTexts draft.objectNames ++ tableTexts draft.routines))))

private theorem interns_singles (names : List String) :
    Interns (names.mapM fun name => intern [name]) (tableTexts names) fun pool =>
      names.map fun name => pool.offsetOf [name] := by
  have each := Interns.mapM (fun name => interns_intern [name] (by simp [longestSequence])) names
  rwa [← List.map_eq_flatMap] at each

theorem interns_nameTable (names : List String) :
    Interns (nameTable names) (tableTexts names) fun pool => nameTableIn pool names := by
  have table := (interns_singles names).map fun offsets =>
    offsets.flatMap fun offset => signed32 (Int32.ofNat offset)
  simp only [List.flatMap_map] at table
  exact table

theorem interns_detailOf (code : CodeDraft) :
    Interns (detailOf code) (descriptorTexts code) fun pool => detailIn pool code := by
  have detail := (interns_singles code.method.metadata).map fun names => {
    codeSize := codeHeaderSize + code.method.codeSize
    entryOffset := codeHeaderSize + code.method.entryOffset
    verifiedEntryOffset := codeHeaderSize + code.method.verifiedEntryOffset
    frameSize := code.method.frameSize
    metadataNames := names.map Int32.ofNat
    classRefs := code.method.classRefs
    objectRefs := code.method.objectRefs : CodeDetail }
  simp only [List.map_map] at detail
  exact detail

theorem interns_recordOf (code : PlacedCode) :
    Interns (recordOf code) [nameParts code.draft] fun pool => recordIn pool code :=
  (interns_intern (nameParts code.draft) (Nat.le_refl _)).map fun name => {
    nameOffset := Int32.ofNat name
    codeOffset := Int32.ofNat code.codeOffset
    detailOffset := Int32.ofNat code.detailOffset
    metadataStart := Int32.ofNat code.metadataStart
    metadataCount := Int32.ofNat code.draft.method.metadata.length
    codeId := Int32.ofNat code.codeId : CodeRecord }

theorem placeCodes_get (details : List Bytes) (codeId : Nat) :
    ((draft.placeCodes details)[codeId]?).map PlacedCode.draft = draft.codes[codeId]? := by
  rw [placeCodes, List.getElem?_mapIdx, Option.map_map]
  exact Option.map_id'

theorem interns_recordsOf (details : List Bytes) (codeIds : List Nat) :
    Interns (recordsOf (draft.placeCodes details) codeIds) (draft.recordTexts codeIds) fun pool =>
      (codeIds.filterMap fun codeId => (draft.placeCodes details)[codeId]?).map (recordIn pool) := by
  have each := Interns.mapM interns_recordOf
    (codeIds.filterMap fun codeId => (draft.placeCodes details)[codeId]?)
  have mentioned : draft.recordTexts codeIds =
      (codeIds.filterMap fun codeId => (draft.placeCodes details)[codeId]?).flatMap
        fun code => [nameParts code.draft] := by
    simp only [recordTexts, ← draft.placeCodes_get details, ← List.map_eq_flatMap,
      List.map_filterMap, Option.map_map]
    rfl
  rwa [← mentioned] at each

theorem interns_contents : Interns draft.contents draft.texts draft.contentsIn := by
  have chain := (Interns.mapM interns_detailOf draft.codes).bind fun details =>
    (Interns.mapM (fun owner : ClassDraft =>
      (draft.interns_recordsOf (details.map CodeDetail.encode) owner.methods).map fun records =>
        group (records.map CodeRecord.encode)) draft.classes).bind fun methodGroups =>
    (draft.interns_recordsOf (details.map CodeDetail.encode) draft.stubs).bind fun stubRecords =>
    (interns_nameTable draft.metaspaceNames).bind fun metaspaceNames =>
    (interns_nameTable draft.objectNames).bind fun objectNames =>
    (interns_nameTable draft.routines).map fun routines => {
      details := (details.map CodeDetail.encode).flatten
      records := methodGroups.flatten ++ (stubRecords.map CodeRecord.encode).flatten
      dependents := draft.dependentGroups.flatten
      classes := draft.classRecords methodGroups draft.dependentGroups
      metaspaceNames
      objectNames
      stubs := signed32List ((runningOffsets methodGroups.flatten.length
        ((stubRecords.map CodeRecord.encode).map List.length)).map Int32.ofNat)
      routines := word32 (UInt32.ofNat draft.routines.length) ++ routines : Contents }
  exact chain

end Draft

end Precompiled.Blob
