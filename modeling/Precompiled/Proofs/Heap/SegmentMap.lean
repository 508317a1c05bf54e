import Precompiled.Heap.Image
import Precompiled.Proofs.Library.Views

/-! The segment map of an assembled blob. A long piece of code has segments whose
link cannot say how far back its first one lies; the links then lead there in
several hops. Wherever code was placed, the map therefore leads to its id. -/
namespace Precompiled

open Blob

namespace Heap

variable {map : Bytes} {first count back : Nat}

/-- The links of the segments of one piece of code lead to the first of them. -/
theorem segmentStart_run
    (links : ∀ back < count, map[first + back]? = some (UInt8.ofNat (min back 254)))
    (inside : back < count) : segmentStart map (first + back) = some first := by
  induction back using Nat.strongRecOn with
  | ind back ih =>
    have value : (UInt8.ofNat (min back 254)).toNat = min back 254 := by
      rw [UInt8.toNat_ofNat', Nat.mod_eq_of_lt]
      omega
    have taken : UInt8.ofNat (min back 254) ≠ freeSegment := by
      intro same
      have equal := congrArg UInt8.toNat same
      rw [value] at equal
      have free : freeSegment.toNat = 255 := rfl
      omega
    rw [segmentStart, links back inside]
    simp only [taken, if_false]
    by_cases start : back = 0
    · subst start
      rfl
    · have more : UInt8.ofNat (min back 254) ≠ 0 := by
        intro same
        have equal := congrArg UInt8.toNat same
        rw [value] at equal
        have zero : (0 : UInt8).toNat = 0 := rfl
        omega
      have reachable : ¬first + back < min back 254 := by omega
      have hop : first + back - min back 254 = first + (back - min back 254) := by omega
      rw [if_neg more, value, if_neg reachable, hop]
      exact ih (back - min back 254) (by omega) (by omega)

end Heap

namespace Blob.Draft

variable {draft : Draft} {library : Library} {codeId offset : Nat} {code : CodeDraft}

/-- Bytes that a piece of code covers, its id included. -/
def span (code : CodeDraft) : Nat :=
  codeHeaderSize.toNat + code.method.codeSize.toNat

theorem segmentSize_pos (draft : Draft) : 0 < draft.segmentSize :=
  Nat.lt_of_lt_of_le Nat.one_pos (Nat.le_max_right _ _)

theorem alignTo_dvd {alignment : Nat} (positive : 0 < alignment) (fill : UInt8) (bytes : Bytes) :
    alignment ∣ (alignTo alignment fill bytes).length := by
  have rest : bytes.length % alignment < alignment := Nat.mod_lt _ positive
  have whole := Nat.div_add_mod bytes.length alignment
  rw [alignTo, List.length_append, List.length_replicate, padding]
  rcases Nat.eq_zero_or_pos (bytes.length % alignment) with even | odd
  · rw [even, Nat.sub_zero, Nat.mod_self, Nat.add_zero]
    exact Nat.dvd_of_mod_eq_zero even
  · rw [Nat.mod_eq_of_lt (by omega)]
    refine ⟨bytes.length / alignment + 1, ?_⟩
    rw [Nat.mul_add, Nat.mul_one]
    omega

theorem chunk_whole (draft : Draft) (codeId : Nat) (code : CodeDraft) :
    draft.segmentSize ∣ (draft.codeChunk codeId code).length :=
  alignTo_dvd draft.segmentSize_pos _ _

theorem chunks_whole (draft : Draft) : ∀ chunk ∈ draft.codeChunks, draft.segmentSize ∣ chunk.length := by
  intro chunk member
  obtain ⟨codeId, inside, rfl⟩ := List.mem_mapIdx.mp member
  exact draft.chunk_whole _ _

theorem span_le (draft : Draft) (codeId : Nat) (code : CodeDraft) :
    span code ≤ (draft.codeChunk codeId code).length := by
  simp only [codeChunk, alignTo, List.length_append, word32_length, List.length_replicate, span]
  have header : codeHeaderSize.toNat = 4 := rfl
  omega

/-- The segment map counts in segments what the code section counts in bytes. -/
theorem segments_start (draft : Draft) {chunks : List Bytes}
    (whole : ∀ chunk ∈ chunks, draft.segmentSize ∣ chunk.length) (index : Nat) :
    startOf (chunks.map draft.segmentBytes) index * draft.segmentSize = startOf chunks index := by
  induction chunks generalizing index with
  | nil => simp [startOf]
  | cons chunk rest ih =>
    cases index with
    | zero => simp [startOf]
    | succ index =>
      have onward := ih (fun other member => whole other (by simp [member])) index
      have own := Nat.div_mul_cancel (whole chunk (by simp))
      simp only [startOf, segmentBytes, List.map_cons, List.length_map, List.length_range,
        List.take_succ_cons, List.sum_cons, Nat.add_mul] at onward ⊢
      rw [own, onward]

theorem segments_length (draft : Draft) :
    (draft.sectionContent .segments).length * draft.segmentSize =
      (draft.sectionContent .code).length := by
  have total := draft.segments_start draft.chunks_whole draft.codeChunks.length
  have all : ∀ pieces : List Bytes, pieces.length = draft.codeChunks.length →
      startOf pieces draft.codeChunks.length = pieces.flatten.length := by
    intro pieces same
    rw [startOf, ← same, List.length_flatten, List.take_of_length_le (by simp)]
  rwa [all _ (by simp), all _ rfl, ← List.flatMap_def] at total

theorem start_whole (draft : Draft) (index : Nat) :
    draft.segmentSize ∣ startOf draft.codeChunks index :=
  ⟨_, (draft.segments_start draft.chunks_whole index).symm.trans (Nat.mul_comm _ _)⟩

/-- Every segment of a piece of code is marked with the way back to its first
one. -/
theorem segments_get (found : draft.codes[codeId]? = some code) {back : Nat}
    (inside : back < (draft.codeChunk codeId code).length / draft.segmentSize) :
    (draft.sectionContent .segments)[startOf (draft.codeChunks.map draft.segmentBytes) codeId + back]? =
      some (UInt8.ofNat (min back 254)) := by
  have piece : (draft.codeChunks.map draft.segmentBytes)[codeId]? =
      some (draft.segmentBytes (draft.codeChunk codeId code)) := by
    rw [List.getElem?_map, chunk_get found]
    rfl
  obtain ⟨before, after, split, length⟩ := holds_flatten piece
  have own : (draft.segmentBytes (draft.codeChunk codeId code))[back]? =
      some (UInt8.ofNat (min back 254)) := by
    simp [segmentBytes, inside]
  obtain ⟨bound, -⟩ := List.getElem?_eq_some_iff.mp own
  rw [sectionContent, List.flatMap_def, split, List.append_assoc, ← length,
    List.getElem?_append_right (Nat.le_add_right _ _), Nat.add_sub_cancel_left,
    List.getElem?_append_left bound, own]

theorem segmentSize_eq (positive : 0 < draft.settings.codeSegmentSize.toInt) :
    draft.settings.codeSegmentSize.toInt.toNat = draft.segmentSize := by
  rw [segmentSize]
  omega

theorem code_number_lt (fits : draft.Fits) (found : draft.codes[codeId]? = some code) :
    codeId < 2 ^ 31 := by
  have inside := (List.getElem?_eq_some_iff.mp found).1
  have count := draft.codes_length_le
  have room := draft.part_length_le .code
  have tables := fits.tables
  omega

theorem natural_ofNat {value : Nat} (small : value < 2 ^ 31) :
    Heap.natural? (Int32.ofNat value) = some value := by
  have number : (Int32.ofNat value).toInt = value := Int32.toInt_ofNat_of_lt small
  have nonneg : ¬Int32.ofNat value < 0 := by
    rw [Int32.lt_iff_toInt_lt, number]
    simp
  rw [Heap.natural?, if_neg nonneg, number, Int.toNat_natCast]

/-- The segment map leads from every offset inside a piece of code to its id. -/
theorem codeIdOf_read (loaded : draft.Loaded library) (fits : draft.Fits)
    (positive : 0 < draft.settings.codeSegmentSize.toInt) (records : List (Option Heap.OwnedRecord))
    (found : draft.codes[codeId]? = some code) (above : startOf draft.codeChunks codeId ≤ offset)
    (below : offset < startOf draft.codeChunks codeId + (draft.codeChunk codeId code).length) :
    (Heap.Image.mk library records).codeIdOf? offset = some codeId := by
  have start := draft.segments_start draft.chunks_whole codeId
  have length := Nat.div_mul_cancel (draft.chunk_whole codeId code)
  have size : (Heap.Image.mk library records).segmentSize = draft.segmentSize := by
    simp only [Heap.Image.segmentSize, loaded.settings, segmentSize_eq positive]
  obtain ⟨rest, rfl⟩ := Nat.exists_eq_add_of_le above
  have segment : (startOf draft.codeChunks codeId + rest) / draft.segmentSize =
      startOf (draft.codeChunks.map draft.segmentBytes) codeId + rest / draft.segmentSize := by
    rw [← start, Nat.add_comm, Nat.add_mul_div_right _ _ draft.segmentSize_pos, Nat.add_comm]
  have inside : rest / draft.segmentSize <
      (draft.codeChunk codeId code).length / draft.segmentSize := by
    rw [Nat.div_lt_iff_lt_mul draft.segmentSize_pos, length]
    omega
  have map : library.contents.segments = draft.sectionContent .segments :=
    loaded.part .segments _ rfl
  have leads : Heap.segmentStart library.contents.segments
      (startOf (draft.codeChunks.map draft.segmentBytes) codeId + rest / draft.segmentSize) =
        some (startOf (draft.codeChunks.map draft.segmentBytes) codeId) := by
    rw [map]
    exact Heap.segmentStart_run (fun back => segments_get found) inside
  simp only [Heap.Image.codeIdOf?, size, segment, leads, Option.bind_eq_bind, Option.bind_some, start,
    codeIdAt_read loaded found, Except.toOption, natural_ofNat (code_number_lt fits found)]

end Blob.Draft

end Precompiled
