import Precompiled.Heap.Image
import Precompiled.Proofs.Outcome

/-! Where code lies. A record is placed only if its code is inside the code
section, begins with a segment and contains both entry points, and if its
metadata slots are inside their table. -/
namespace Precompiled.Heap

open Blob

variable {image : Image} {record : CodeRecord} {detail : CodeDetail} {name : MethodName}
  {method : Option MethodRef} {holder : Option ClassRef} {classId : Option Nat} {code : LinkedCode}

/-- What placing code at an offset of the code section yields. -/
def placedAt (image : Image) (record : CodeRecord) (detail : CodeDetail) (name : MethodName)
    (method : Option MethodRef) (holder : Option ClassRef) (classId : Option Nat)
    (offset start : Nat) : LinkedCode where
  codeId := record.codeId.toUInt32.toNat
  libraryId := image.library.id
  name := name
  method := method
  holder := holder
  classId := classId
  start := image.library.codeBase + offset
  size := detail.codeSize.toNat
  entryOffset := detail.entryOffset.toNat
  verifiedEntryOffset := detail.verifiedEntryOffset.toNat
  frameSize := detail.frameSize.toNat
  metadataStart := start
  metadataStop := start + detail.metadataNames.length

/-- The geometry that placing checks. -/
structure Geometry (image : Image) (record : CodeRecord) (detail : CodeDetail)
    (offset start : Nat) : Prop where
  begins : natural? record.codeOffset = some offset
  aligned : offset % image.segmentSize = 0
  inside : offset + detail.codeSize.toNat ≤ image.library.codeSize
  entry : detail.entryOffset.toNat < detail.codeSize.toNat
  verifiedEntry : detail.verifiedEntryOffset.toNat < detail.codeSize.toNat
  slots : natural? record.metadataStart = some start
  count : natural? record.metadataCount = some detail.metadataNames.length
  room : start + detail.metadataNames.length ≤ image.library.header.metadataSize.toNat

/-- Code is placed exactly if its geometry is right. -/
theorem place_ok :
    image.place record detail name method holder classId = .ok code ↔
      ∃ offset start, Geometry image record detail offset start ∧
        code = placedAt image record detail name method holder classId offset start := by
  unfold Image.place
  constructor
  · intro placed
    cases begins : natural? record.codeOffset with
    | none => simp [begins] at placed
    | some offset =>
      simp only [begins] at placed
      obtain ⟨aligned, placed⟩ := Outcome.guard_ok.mp placed
      obtain ⟨inside, placed⟩ := Outcome.guard_ok.mp placed
      obtain ⟨entries, placed⟩ := Outcome.guard_ok.mp placed
      cases slots : natural? record.metadataStart with
      | none => simp [slots] at placed
      | some start =>
        cases counted : natural? record.metadataCount with
        | none => simp [slots, counted] at placed
        | some count =>
          simp only [slots, counted] at placed
          obtain ⟨range, placed⟩ := Outcome.guard_ok.mp placed
          obtain ⟨room, same⟩ := not_or.mp range
          obtain ⟨entry, verifiedEntry⟩ := not_or.mp entries
          obtain rfl : detail.metadataNames.length = count := Decidable.not_not.mp same
          refine ⟨offset, start, ?_, (Outcome.pure_ok.mp placed).symm⟩
          exact ⟨begins, Decidable.not_not.mp aligned, Nat.le_of_not_lt inside, Nat.lt_of_not_le entry,
            Nat.lt_of_not_le verifiedEntry, slots, counted, Nat.le_of_not_lt room⟩
  · rintro ⟨offset, start, geometry, rfl⟩
    simp only [geometry.begins, geometry.slots, geometry.count]
    refine Outcome.guard_ok.mpr ⟨Decidable.not_not.mpr geometry.aligned, ?_⟩
    refine Outcome.guard_ok.mpr ⟨Nat.not_lt.mpr geometry.inside, ?_⟩
    refine Outcome.guard_ok.mpr ⟨?_, ?_⟩
    · exact not_or.mpr ⟨Nat.not_le.mpr geometry.entry, Nat.not_le.mpr geometry.verifiedEntry⟩
    refine Outcome.guard_ok.mpr ⟨?_, rfl⟩
    exact not_or.mpr ⟨Nat.not_lt.mpr geometry.room, Decidable.not_not.mpr rfl⟩

end Precompiled.Heap
