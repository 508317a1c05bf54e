import Precompiled.Proofs.Checksum
import Precompiled.Proofs.Library.WellFormed
import Precompiled.Proofs.Traps.Library

/-! Blobs that were damaged on the way. A loader that verifies the checksum
notices every change of a few bytes in a row behind the header, before it looks
at any of them. A blob that was cut off is noticed without the checksum too:
the name pool comes last, and its range is compared with the bytes that are
there. -/
namespace Precompiled.Library

open Blob Outcome Checksum

variable {data corrupted : Bytes} {name : String} {id : Nat} {options : LoadOptions}
  {header : Header} {library : Library} {error : Error}

/-- A blob that is not accepted is not reported either. -/
theorem load_refused (refused : accept data name id options = .error error) (journal : Journal) :
    (load data name id options).run journal = (.error error, journal) := by
  unfold load
  rw [refused]
  rfl

/-! ## Changed bytes -/

/-- The header stands in the bytes that every blob of the format begins with. -/
theorem header_shared (begins : header.encode <+: data)
    (same : corrupted.take headerSize = data.take headerSize) : header.encode <+: corrupted := by
  have front : header.encode = data.take headerSize := by
    rw [← header.encode_length]
    exact List.prefix_iff_eq_take.mp begins
  rw [front, ← same]
  exact List.take_prefix ..

/-- A header that is fine except for its checksum is refused for its checksum. -/
theorem accept_refuses_checksum (begins : header.encode <+: data) (magic : header.magic = magicWord)
    (version : header.version = formatVersion) (verifies : options.verifyChecksum = true)
    (wrong : crc32 (data.drop headerSize) ≠ header.checksum) :
    accept data name id options =
      .error (.format name (.checksum (crc32 (data.drop headerSize)) header.checksum)) := by
  refine accept_refuses_check begins ?_
  rw [verifies]
  exact checkHeader_refuses_checksum magic version wrong

/-- A loader that verifies the checksum refuses what becomes of an accepted blob if up
to four bytes in a row behind its header are changed. -/
theorem corruption_refused (journal : Journal)
    (verifies : options.verifyChecksum = true)
    (loaded : ((load data name id options).run journal).1 = .ok library)
    (length : corrupted.length = data.length)
    (head : corrupted.take headerSize = data.take headerSize) (start width : Nat) (short : width ≤ 4)
    (agree : AgreeOutside start width data corrupted) (different : corrupted ≠ data)
    (called : String) (number : Nat) (other : LoadOptions) (verify : other.verifyChecksum = true)
    (note : Journal) :
    crc32 (corrupted.drop headerSize) ≠ library.header.checksum ∧
    (load corrupted called number other).run note =
      (.error (.format called
        (.checksum (crc32 (corrupted.drop headerSize)) library.header.checksum)), note) := by
  have accepted := accept_ok.mp ((Edits.load_run ..).symm.trans loaded)
  have begins := header_run.mp accepted.header
  have stored := accepted.checksum verifies
  have wrong : crc32 (corrupted.drop headerSize) ≠ library.header.checksum := by
    intro same
    refine different ?_
    have rest := crc32_detects (by rw [List.length_drop, List.length_drop, length]) short
      (agree.drop headerSize) (same.trans stored.symm)
    rw [← List.take_append_drop headerSize corrupted, head, rest, List.take_append_drop]
  refine ⟨wrong, load_refused ?_ note⟩
  exact accept_refuses_checksum (header_shared begins head) accepted.magic accepted.version verify wrong

/-- The sample blob with two bytes changed that lie three bytes apart. -/
def scratched : Bytes :=
  ((Draft.describe {} "1" Edits.sample).assemble.set 200 1).set 203 2

theorem scratched_agrees :
    AgreeOutside 200 4 (Draft.describe {} "1" Edits.sample).assemble scratched := by
  intro index outside
  rw [scratched, List.getElem?_set_ne (by omega), List.getElem?_set_ne (by omega)]

theorem scratched_differs : scratched ≠ (Draft.describe {} "1" Edits.sample).assemble := by
  have there : (Draft.describe {} "1" Edits.sample).assemble[203]? = some 204 := by decide +kernel
  have within : 203 < (Draft.describe {} "1" Edits.sample).assemble.length :=
    (List.getElem?_eq_some_iff.mp there).1
  intro same
  rw [← same, scratched, List.getElem?_set_self (by rwa [List.length_set])] at there
  exact absurd there (by decide)

theorem corruption_refused_sample : ∃ library,
    ((load (Draft.describe {} "1" Edits.sample).assemble "lib" 0 {}).run []).1 = .ok library ∧
    scratched ≠ (Draft.describe {} "1" Edits.sample).assemble ∧
    crc32 (scratched.drop headerSize) ≠ library.header.checksum ∧
    (load scratched "copy" 1 {}).run [] =
      (.error (.format "copy"
        (.checksum (crc32 (scratched.drop headerSize)) library.header.checksum)), []) := by
  have writable := Edits.sample_writable
  have fits : (Draft.describe {} "1" Edits.sample).Fits := Draft.fits_of_length (by decide +kernel)
  have names : (Draft.describe {} "1" Edits.sample).ClassNames := by
    rw [Edits.describe_eq writable.known]
    exact writable.classNames
  have accepted := Draft.accept_assemble fits.addressable names "lib" 0 {}
  have loaded := (Edits.load_run _ "lib" 0 {} []).trans accepted
  exact ⟨_, loaded, scratched_differs, corruption_refused [] rfl loaded (by simp [scratched])
    (by simp [scratched, List.take_set_of_le, headerSize]) 200 4 (Nat.le_refl 4) scratched_agrees
    scratched_differs "copy" 1 {} rfl []⟩

/-! ## Missing bytes -/

/-- The range of the name pool is compared with the bytes that are there, unless
the checksum or the engine's version has given the fault away before. -/
theorem accept_refuses_pool (begins : header.encode <+: data) (magic : header.magic = magicWord)
    (version : header.version = formatVersion)
    (cut : data.length < header.namesOffset.toNat + header.namesSize.toNat) :
    (options.verifyChecksum = true ∧ ∃ computed, computed ≠ header.checksum ∧
      accept data name id options = .error (.format name (.checksum computed header.checksum))) ∨
    ∃ cause, accept data name id options = .error (.malformed name cause) := by
  by_cases fine : options.verifyChecksum = true → crc32 (data.drop headerSize) = header.checksum
  case neg =>
    obtain ⟨verifies, wrong⟩ := Classical.not_imp.mp fine
    exact .inl ⟨verifies, _, wrong, accept_refuses_checksum begins magic version verifies wrong⟩
  case pos =>
    right
    have long : ¬data.length < headerSize :=
      Nat.not_lt.mpr (header.encode_length ▸ begins.length_le)
    have passed : checkHeader name data options.verifyChecksum header = .ok () :=
      checkHeader_ok.mpr ⟨magic, version, fine⟩
    have outside : range? data header.namesOffset.toNat header.namesSize.toNat =
        .error (.unexpectedEnd header.namesOffset.toNat header.namesSize.toNat) :=
      if_neg (Nat.not_le.mpr cut)
    rw [accept, if_neg long, header_run.mpr begins]
    simp only [inLibrary, Except.mapError, ok_bind, passed, outside]
    cases Decoder.cString.runAt data header.engineVersionOffset.toNat with
    | error cause => exact ⟨cause, rfl⟩
    | ok engineVersion => exact ⟨_, rfl⟩

/-- The pool is the last part of a blob. -/
theorem header_end (draft : Draft) (small : draft.assemble.length < 2 ^ 32) :
    draft.finalHeader.namesOffset.toNat + draft.finalHeader.namesSize.toNat =
      draft.assemble.length := by
  rw [Draft.assemble_length] at small ⊢
  have tables : draft.finalHeader.namesOffset.toNat = draft.namesStart :=
    Draft.word_value (by omega)
  have names : draft.finalHeader.namesSize.toNat = draft.pool.bytes.length :=
    Draft.word_value (by omega)
  rw [tables, names]

/-- Why the first bytes of a blob are refused: its header is not there, or it is and
tells that something else is missing. -/
inductive CutShort (draft : Draft) (name : String) (verify : Bool) (kept : Nat) : Error → Prop
  | header (few : kept < headerSize) :
    CutShort draft name verify kept (.format name (.tooShort kept))
  | checksum (whole : headerSize ≤ kept) (computed : UInt32) (verifies : verify = true)
      (wrong : computed ≠ draft.finalHeader.checksum) :
    CutShort draft name verify kept
      (.format name (.checksum computed draft.finalHeader.checksum))
  | contents (whole : headerSize ≤ kept) (cause : DecodeError) :
    CutShort draft name verify kept (.malformed name cause)

theorem accept_refuses_cut (draft : Draft) (small : draft.assemble.length < 2 ^ 32)
    {kept : Nat} (cut : kept < draft.assemble.length) :
    ∃ error, CutShort draft name options.verifyChecksum kept error ∧
      accept (draft.assemble.take kept) name id options = .error error := by
  have length : (draft.assemble.take kept).length = kept :=
    List.length_take_of_le (Nat.le_of_lt cut)
  by_cases few : kept < headerSize
  · have refused : accept (draft.assemble.take kept) name id options =
        .error (.format name (.tooShort kept)) := by
      rw [accept_refuses_short (length.trans_lt few), length]
    exact ⟨_, .header few, refused⟩
  · have whole := Nat.not_lt.mp few
    have begins : draft.finalHeader.encode <+: draft.assemble.take kept := by
      refine List.prefix_take_iff.mpr ⟨header_run.mp draft.header_reads, ?_⟩
      rw [Header.encode_length]
      exact whole
    have missing : (draft.assemble.take kept).length <
        draft.finalHeader.namesOffset.toNat + draft.finalHeader.namesSize.toNat := by
      rw [length, header_end draft small]
      exact cut
    rcases @accept_refuses_pool _ name id options _ begins rfl rfl missing with
      ⟨verifies, computed, wrong, refused⟩ | ⟨cause, refused⟩
    · exact ⟨_, .checksum whole computed verifies wrong, refused⟩
    · exact ⟨_, .contents whole cause, refused⟩

/-- A blob of which the end is missing is refused, and refusing it does not trap. -/
theorem truncated_refused (draft : Draft) (small : draft.assemble.length < 2 ^ 32) (kept : Nat)
    (cut : kept < draft.assemble.length) (name : String) (id : Nat) (options : LoadOptions) :
    ∃ error, CutShort draft name options.verifyChecksum kept error ∧
      (∀ journal, (load (draft.assemble.take kept) name id options).run journal =
        (.error error, journal)) ∧
      (Stored.accept (draft.assemble.take kept) name id options).run = .ok (.error error) := by
  obtain ⟨error, why, refused⟩ := accept_refuses_cut draft small cut
  have fits : (draft.assemble.take kept).length < 2 ^ 63 :=
    Nat.lt_of_le_of_lt (List.length_take_le' ..) (by omega)
  refine ⟨error, why, load_refused refused, ?_⟩
  rcases (Stored.accept_evaluates fits id options).outcome with
    ⟨other, ran, plain⟩ | ⟨stored, library, -, plain, -⟩
  · obtain rfl := Except.error.inj (plain.symm.trans refused)
    exact ran
  · cases plain.symm.trans refused

theorem truncated_refused_sample :
    (Draft.describe {} "1" Edits.sample).assemble.length = 901 ∧
    ∃ error, CutShort (Draft.describe {} "1" Edits.sample) "lib" false 900 error ∧
      (∀ journal, (load ((Draft.describe {} "1" Edits.sample).assemble.take 900) "lib" 0
        { verifyChecksum := false }).run journal = (.error error, journal)) ∧
      (Stored.accept ((Draft.describe {} "1" Edits.sample).assemble.take 900) "lib" 0
        { verifyChecksum := false }).run = .ok (.error error) := by
  have length : (Draft.describe {} "1" Edits.sample).assemble.length = 901 := by decide +kernel
  exact ⟨length, truncated_refused _ (by omega) 900 (by omega) "lib" 0 { verifyChecksum := false }⟩

end Precompiled.Library
