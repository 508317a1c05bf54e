import Precompiled.Proofs.Heap.Claims
import Precompiled.Proofs.Heap.Place
import Precompiled.Proofs.Traps.Views

/-! The fixed half of a heap over a library as it is kept. Segments are counted by shifts,
so the segment size is there as an exponent, and placing a piece of code computes its
bounds by sums that have to fit a word. They do because the code of a library lies inside
the address space. -/
namespace Precompiled.Heap

open Blob Trapping

structure Fixture where
  stored : Stored
  records : List (Option OwnedRecord)
  /-- A segment has two to the power of this many bytes. -/
  shift : Nat

namespace Fixture

variable (fixture : Fixture)

def image : Image :=
  ⟨fixture.stored.library, fixture.records⟩

/-- What is checked, or known, when the heap is created. -/
structure Sound (fixture : Fixture) : Prop where
  stored : fixture.stored.Sound
  records : fixture.records.length = fixture.image.slotCount
  narrow : fixture.shift < 31
  segmentSize : fixture.image.segmentSize = 2 ^ fixture.shift
  codeSize : fixture.image.library.codeSize < 2 ^ 32
  classes : ∀ classId record, classId < fixture.image.classCount →
    fixture.image.library.classRecord classId = .ok record →
      ∃ index, natural? record.gotIndex = some index
  placed : fixture.image.library.codeBase + fixture.image.library.codeSize < 2 ^ 64

/-- The code that a record and its detail describe, after its geometry was checked. -/
def place (record : CodeRecord) (detail : CodeDetail) (name : MethodName)
    (method : Option MethodRef) (holder : Option ClassRef) (classId : Option Nat) :
    ExceptT Error Trapping LinkedCode := do
  let refuse {α : Type} (fault : GeometryFault) : Except Error α :=
    .error (.format fixture.stored.name (.geometry fault name))
  let some offset := natural? record.codeOffset | refuse .codeOffset
  let size := detail.codeSize.toNat
  let mask ← sub (← shiftLeft 1 fixture.shift) 1
  if offset &&& mask ≠ 0 then refuse .unaligned
  if ((add? offset size).filter (· ≤ fixture.stored.codeSize)).isNone then refuse .codeRange
  if size ≤ detail.entryOffset.toNat ∨ size ≤ detail.verifiedEntryOffset.toNat then
    refuse .entryPoint
  let some start := natural? record.metadataStart | refuse .metadataOffset
  let some count := natural? record.metadataCount | refuse .metadataCount
  if fixture.stored.header.metadataSize.toNat < (← add start count) ∨
      detail.metadataNames.length ≠ count then
    refuse .metadataRange
  return {
    codeId := record.codeId.toUInt32.toNat
    libraryId := fixture.stored.id
    name, method, holder, classId
    start := ← add (← fixture.stored.base) offset
    size
    entryOffset := detail.entryOffset.toNat
    verifiedEntryOffset := detail.verifiedEntryOffset.toNat
    frameSize := detail.frameSize.toNat
    metadataStart := start
    metadataStop := ← add start count }

end Fixture

/-- The code lies where the code of the library does. -/
structure Image.Contains (image : Image) (code : LinkedCode) : Prop where
  above : image.library.codeBase ≤ code.start
  below : code.stop ≤ image.library.codeBase + image.library.codeSize

namespace Fixture

variable {fixture : Fixture} {record : CodeRecord} {detail : CodeDetail} {name : MethodName}
  {method : Option MethodRef} {holder : Option ClassRef} {classId : Option Nat}

/-- A signed number that is not negative is small. -/
theorem natural_lt {value : Int32} {number : Nat} (found : natural? value = some number) :
    number < 2 ^ 31 := by
  unfold natural? at found
  split at found
  · cases found
  · cases found
    have := value.toInt_lt
    omega

theorem Sound.base_ok (sound : fixture.Sound) :
    fixture.stored.base = .ok fixture.image.library.codeBase :=
  sound.stored.base_ok

/-- Placing code does not trap. -/
theorem Sound.place_evaluates (sound : fixture.Sound) :
    Evaluates (fun code placed => code = placed ∧ fixture.image.Contains code)
      (fixture.place record detail name method holder classId)
      (fixture.image.place record detail name method holder classId) := by
  unfold Fixture.place Image.place
  cases begins : natural? record.codeOffset with
  | none => exact .error _
  | some offset =>
    have few := natural_lt begins
    have size : detail.codeSize.toNat < 2 ^ 32 := detail.codeSize.toNat_lt
    have power : 2 ^ fixture.shift < 2 ^ 31 := Nat.pow_lt_pow_right (by decide) sound.narrow
    have positive : 0 < 2 ^ fixture.shift := Nat.two_pow_pos _
    have unit : shiftLeft 1 fixture.shift = .ok (2 ^ fixture.shift) := by
      have narrow := sound.narrow
      rw [shiftLeft_ok (by omega) (by omega), Nat.one_mul]
    have code := sound.stored.codeSize_eq
    dsimp only
    rw [evaluate_bind unit, evaluate_bind (sub_ok positive), Nat.and_two_pow_sub_one_eq_mod,
      sound.segmentSize]
    have range : ((add? offset detail.codeSize.toNat).filter
          (· ≤ fixture.stored.codeSize)).isNone = true ↔
        fixture.image.library.codeSize < offset + detail.codeSize.toNat := by
      rw [add?_some (by omega), code]
      simp [Option.filter, Fixture.image]
    by_cases unaligned : offset % 2 ^ fixture.shift ≠ 0
    · rw [if_pos unaligned, if_pos unaligned]
      exact .error _
    rw [if_neg unaligned, if_neg unaligned]
    by_cases outside : fixture.image.library.codeSize < offset + detail.codeSize.toNat
    · rw [if_pos (range.mpr outside), if_pos outside]
      exact .error _
    rw [if_neg (range.not.mpr outside), if_neg outside]
    by_cases entry : detail.codeSize.toNat ≤ detail.entryOffset.toNat ∨
        detail.codeSize.toNat ≤ detail.verifiedEntryOffset.toNat
    · rw [if_pos entry, if_pos entry]
      exact .error _
    rw [if_neg entry, if_neg entry]
    cases starts : natural? record.metadataStart with
    | none => exact .error _
    | some start =>
      cases counted : natural? record.metadataCount with
      | none => exact .error _
      | some count =>
        have small := natural_lt starts
        have short := natural_lt counted
        dsimp only
        rw [evaluate_bind (add_ok (by omega))]
        by_cases room : fixture.stored.header.metadataSize.toNat < start + count ∨
            detail.metadataNames.length ≠ count
        · rw [if_pos room, if_pos (by exact room)]
          exact .error _
        rw [if_neg room, if_neg (by exact room)]
        have placed := sound.placed
        rw [evaluate_bind sound.base_ok, evaluate_bind (add_ok (by omega)),
          evaluate_bind (add_ok (by omega))]
        refine .ok ⟨rfl, ?_, ?_⟩
        · exact Nat.le_add_right _ _
        · simp only [LinkedCode.stop]
          omega

end Fixture

end Precompiled.Heap
