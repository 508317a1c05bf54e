import Precompiled.Blob.BuildSettings
import Precompiled.Blob.Header
import Precompiled.Blob.Record
import Precompiled.Proofs.Outcome
import Precompiled.Proofs.Traps.Machine

/-! Reading through a window. A window is a byte string with a position in it, and a scan
reads from there by partial expressions: it takes slices, copies them into arrays and adds
to the position. On a window whose position lies inside its data no scan traps, and what
it reads is what a decoder reads from the bytes that are left. -/
namespace Precompiled.Blob

open Trapping

structure Window where
  data : Bytes
  position : Nat

namespace Window

/-- The position lies inside the data, and the data fit into memory. -/
structure Inside (window : Window) : Prop where
  bound : window.position ≤ window.data.length
  small : window.data.length < 2 ^ 63

/-- The position and the bytes from there on. -/
def cursor (window : Window) : Cursor :=
  ⟨window.position, window.data.drop window.position⟩

def start (data : Bytes) : Window :=
  ⟨data, 0⟩

def at? (data : Bytes) (offset : Nat) : Except DecodeError Window :=
  if data.length < offset then .error (.unexpectedEnd offset 0) else .ok ⟨data, offset⟩

def atSigned? (data : Bytes) (offset : Int32) : Except DecodeError Window :=
  if offset < 0 then .error (.invalidOffset offset.toInt) else at? data offset.toInt.toNat

end Window

namespace Decoder

variable {α : Type}

/-- Whatever is read has the property. -/
def Yields (property : α → Prop) (decoder : Decoder α) : Prop :=
  ∀ cursor value, decoder.run cursor = .ok value → property value

theorem yields_any (decoder : Decoder α) : decoder.Yields fun _ => True :=
  fun _ _ _ => trivial

end Decoder

/-- A step that reads from a window. -/
def Scan (α : Type) : Type :=
  Window → Trapping (Except DecodeError α × Window)

namespace Scan

variable {α β : Type}

instance : Monad Scan where
  pure value := fun window => .ok (.ok value, window)
  bind first next := fun window =>
    match first window with
    | .error trap => .error trap
    | .ok (.error error, after) => .ok (.error error, after)
    | .ok (.ok value, after) => next value after

/-- A partial expression within a scan. -/
def evaluate (expression : Trapping α) : Scan α := fun window =>
  expression.map fun value => (.ok value, window)

def fail (error : DecodeError) : Scan α := fun window =>
  .ok (.error error, window)

def position : Scan Nat := fun window =>
  .ok (.ok window.position, window)

def remaining : Scan Nat := fun window =>
  (sub window.data.length window.position).map fun count => (.ok count, window)

/-- The outcome alone. -/
def run (scan : Scan α) (window : Window) : Trapping (Except DecodeError α) :=
  (scan window).map Prod.fst

def runAt (scan : Scan α) (data : Bytes) (offset : Nat) : Trapping (Except DecodeError α) :=
  match Window.at? data offset with
  | .error error => .ok (.error error)
  | .ok window => scan.run window

def runAtSigned (scan : Scan α) (data : Bytes) (offset : Int32) :
    Trapping (Except DecodeError α) :=
  match Window.atSigned? data offset with
  | .error error => .ok (.error error)
  | .ok window => scan.run window

/-! ## Reading -/

def bytes (count : Nat) : Scan Bytes := fun window =>
  match (add? window.position count).filter (· ≤ window.data.length) with
  | none => .ok (.error (.unexpectedEnd window.position count), window)
  | some stop =>
    (slice window.data window.position stop).map fun chunk =>
      (.ok chunk, { window with position := stop })

/-- The next bytes, copied into an array of `width` bytes. -/
def array (width : Nat) : Scan Bytes := do
  evaluate (copy width (← bytes width))

def uint8 : Scan UInt8 := do
  evaluate (get (← array 1) 0)

def natural (width : Nat) : Scan Nat := do
  return ofLittleEndian (← array width)

def uint16 : Scan UInt16 := return UInt16.ofNat (← natural 2)

def uint32 : Scan UInt32 := return UInt32.ofNat (← natural 4)

def int32 : Scan Int32 := return (← uint32).toInt32

def uint64 : Scan UInt64 := return UInt64.ofNat (← natural 8)

def flag : Scan Bool := do
  let offset ← position
  let value ← uint8
  if value = 0 then return false
  else if value = 1 then return true
  else fail (.invalidFlag value offset)

def text (count : Nat) : Scan String := do
  let offset ← position
  match textOfBytes? (← bytes count) with
  | some text => return text
  | none => fail (.invalidText offset)

def name : Scan String := do
  text (← uint16).toNat

def cString : Scan String := fun window => do
  let rest ← slice window.data window.position window.data.length
  match rest.findIdx? (· = 0) with
  | none =>
    let needed ← add rest.length 1
    return (.error (.unexpectedEnd window.position needed), window)
  | some length =>
    match textOfBytes? (← slice rest 0 length) with
    | none => return (.error (.invalidText window.position), window)
    | some text =>
      let position ← add window.position (← add length 1)
      return (.ok text, { window with position })

def times (scan : Scan α) : Nat → Scan (List α)
  | 0 => return []
  | count + 1 => do
    let first ← scan
    let rest ← times scan count
    return first :: rest

def count : Scan Nat := do
  let offset ← position
  let value ← int32
  if value < 0 then fail (.invalidOffset value.toInt)
  else
    let needed := saturatingMul value.toInt.toNat 4
    if (← remaining) < needed then fail (.unexpectedEnd offset needed)
    else return value.toInt.toNat

def int32List : Scan (List Int32) := do
  int32.times (← count)

def uint32List : Scan (List UInt32) := do
  uint32.times (← count)

/-! ## Scans and decoders -/

/-- On every window within its data the scan has a value, and it reads what the decoder
reads. -/
def Mirrors (scan : Scan α) (decoder : Decoder α) : Prop :=
  ∀ window : Window, window.Inside → ∃ after : Window, after.data = window.data ∧ after.Inside ∧
    scan window = .ok ((decoder window.cursor).1, after) ∧
    (decoder window.cursor).2 = after.cursor

variable {scan : Scan α} {decoder : Decoder α} {next : α → Scan β} {other : α → Decoder β}

/-- The second half may use what every value of the first half satisfies. -/
theorem Mirrors.bind_of {known : α → Prop} (first : scan.Mirrors decoder)
    (yields : decoder.Yields known)
    (second : ∀ value, known value → (next value).Mirrors (other value)) :
    (scan >>= next).Mirrors (decoder >>= other) := by
  intro window inside
  obtain ⟨middle, same, within, scanned, left⟩ := first window inside
  have told := yields window.cursor
  rw [Decoder.run] at told
  simp only [bind, scanned]
  generalize decoder window.cursor = outcome at left told ⊢
  obtain ⟨result, cursor⟩ := outcome
  cases left
  cases result with
  | error error => exact ⟨middle, same, within, rfl, rfl⟩
  | ok value =>
    obtain ⟨after, kept, final, ended, last⟩ := second value (told value rfl) middle within
    exact ⟨after, kept.trans same, final, ended, last⟩

theorem Mirrors.bind (first : scan.Mirrors decoder)
    (second : ∀ value, (next value).Mirrors (other value)) :
    (scan >>= next).Mirrors (decoder >>= other) :=
  first.bind_of (Decoder.yields_any decoder) fun value _ => second value

theorem mirrors_pure (value : α) : (pure value : Scan α).Mirrors (pure value) :=
  fun window inside => ⟨window, rfl, inside, rfl, rfl⟩

theorem mirrors_fail (error : DecodeError) : (fail error : Scan α).Mirrors (Decoder.fail error) :=
  fun window inside => ⟨window, rfl, inside, rfl, rfl⟩

/-- A partial expression that has a value is as good as the value. -/
theorem mirrors_evaluate {expression : Trapping α} {value : α} (has : expression = .ok value) :
    (evaluate expression).Mirrors (pure value) := by
  intro window inside
  exact ⟨window, rfl, inside, by rw [evaluate, has]; rfl, rfl⟩

theorem position_mirrors : position.Mirrors Decoder.position :=
  fun window inside => ⟨window, rfl, inside, rfl, rfl⟩

theorem remaining_mirrors : remaining.Mirrors Decoder.remaining := by
  intro window inside
  refine ⟨window, rfl, inside, ?_, rfl⟩
  rw [remaining, sub_ok inside.bound]
  simp [Except.map, Decoder.remaining, Window.cursor, Cursor.remaining]

theorem bytes_mirrors (count : Nat) : (bytes count).Mirrors (Decoder.bytes count) := by
  intro window inside
  obtain ⟨bound, small⟩ := inside
  have left : window.cursor.rest.length = window.data.length - window.position := by
    simp [Window.cursor]
  by_cases enough : window.position + count ≤ window.data.length
  · have stop : (add? window.position count).filter (· ≤ window.data.length) =
        some (window.position + count) := by
      rw [add?_some (by omega)]
      simp [enough]
    have whole : (window.cursor.rest.take count).length = count := by
      rw [List.length_take, left]
      omega
    refine ⟨{ window with position := window.position + count }, rfl, ⟨enough, small⟩, ?_, ?_⟩
    · rw [bytes, stop]
      simp only [slice_ok (Nat.le_add_right _ _) enough, Except.map, Decoder.bytes, whole, if_true]
      simp [Window.cursor]
    · simp only [Decoder.bytes, whole, if_true]
      simp [Window.cursor, List.drop_drop]
  · have stop : (add? window.position count).filter (· ≤ window.data.length) = none := by
      rw [add?]
      split
      · simpa using Nat.lt_of_not_le enough
      · rfl
    have short : ¬(window.cursor.rest.take count).length = count := by
      rw [List.length_take, left]
      omega
    refine ⟨window, rfl, ⟨bound, small⟩, ?_, ?_⟩
    · rw [bytes, stop]
      simp only [Decoder.bytes, short, if_false]
      rfl
    · simp only [Decoder.bytes, short, if_false]

theorem bytes_length {count : Nat} {cursor : Cursor} {chunk : Bytes}
    (read : (Decoder.bytes count cursor).1 = .ok chunk) : chunk.length = count := by
  simp only [Decoder.bytes] at read
  split at read
  next whole => exact Except.ok.inj read ▸ whole
  next => cases read

theorem array_mirrors (width : Nat) : (array width).Mirrors (Decoder.bytes width) := by
  have same : Decoder.bytes width = Decoder.bytes width >>= fun chunk => pure chunk := by
    funext cursor
    simp only [bind]
    split <;> simp_all [pure]
  rw [same]
  exact (bytes_mirrors width).bind_of (fun _ _ => bytes_length) fun chunk whole =>
    mirrors_evaluate (copy_ok whole)

theorem natural_mirrors (width : Nat) : (natural width).Mirrors (Decoder.natural width) :=
  (array_mirrors width).bind fun _ => mirrors_pure _

theorem uint8_mirrors : uint8.Mirrors Decoder.uint8 := by
  have same : Decoder.uint8 =
      Decoder.bytes 1 >>= fun chunk => pure (UInt8.ofNat (ofLittleEndian chunk)) := by
    funext cursor
    simp only [Decoder.uint8, Decoder.natural, bind]
    generalize Decoder.bytes 1 cursor = outcome
    obtain ⟨_ | _, _⟩ := outcome <;> rfl
  rw [same]
  refine (array_mirrors 1).bind_of (fun _ _ => bytes_length) fun chunk whole => ?_
  obtain ⟨byte, rfl⟩ := List.length_eq_one_iff.mp whole
  have only : UInt8.ofNat (ofLittleEndian [byte]) = byte := by simp [ofLittleEndian]
  rw [only]
  exact mirrors_evaluate rfl

theorem uint16_mirrors : uint16.Mirrors Decoder.uint16 :=
  (natural_mirrors 2).bind fun _ => mirrors_pure _

theorem uint32_mirrors : uint32.Mirrors Decoder.uint32 :=
  (natural_mirrors 4).bind fun _ => mirrors_pure _

theorem int32_mirrors : int32.Mirrors Decoder.int32 :=
  uint32_mirrors.bind fun _ => mirrors_pure _

theorem uint64_mirrors : uint64.Mirrors Decoder.uint64 :=
  (natural_mirrors 8).bind fun _ => mirrors_pure _

theorem flag_mirrors : flag.Mirrors Decoder.flag := by
  refine position_mirrors.bind fun offset => uint8_mirrors.bind fun value => ?_
  split
  · exact mirrors_pure false
  · split
    · exact mirrors_pure true
    · exact mirrors_fail _

theorem text_mirrors (count : Nat) : (text count).Mirrors (Decoder.text count) := by
  refine position_mirrors.bind fun offset => (bytes_mirrors count).bind fun chunk => ?_
  cases textOfBytes? chunk with
  | some text => exact mirrors_pure text
  | none => exact mirrors_fail _

theorem name_mirrors : name.Mirrors Decoder.name :=
  uint16_mirrors.bind fun _ => text_mirrors _

theorem times_mirrors {scan : Scan α} {decoder : Decoder α} (each : scan.Mirrors decoder)
    (count : Nat) : (scan.times count).Mirrors (decoder.times count) := by
  induction count with
  | zero => exact mirrors_pure []
  | succ count ih => exact each.bind fun _ => ih.bind fun _ => mirrors_pure _

theorem count_mirrors : count.Mirrors Decoder.count := by
  refine position_mirrors.bind fun offset => int32_mirrors.bind fun value => ?_
  split
  · exact mirrors_fail _
  · have small := value.toInt_lt
    have exact : saturatingMul value.toInt.toNat 4 = 4 * value.toInt.toNat := by
      rw [saturatingMul]
      omega
    simp only [exact]
    refine remaining_mirrors.bind fun left => ?_
    split
    · exact mirrors_fail _
    · exact mirrors_pure _

theorem int32List_mirrors : int32List.Mirrors Decoder.int32List :=
  count_mirrors.bind fun _ => times_mirrors int32_mirrors _

theorem uint32List_mirrors : uint32List.Mirrors Decoder.uint32List :=
  count_mirrors.bind fun _ => times_mirrors uint32_mirrors _

/-- The first zero byte is where the longest prefix without one ends. -/
theorem takeWhile_of_findIdx {rest : Bytes} {length : Nat}
    (first : rest.findIdx? (· = 0) = some length) :
    length < rest.length ∧ rest.takeWhile (· ≠ 0) = rest.take length := by
  obtain ⟨inside, index⟩ := List.findIdx?_eq_some_iff_findIdx_eq.mp first
  refine ⟨inside, ?_⟩
  rw [List.takeWhile_eq_take_findIdx_not]
  simpa using congrArg rest.take index

theorem takeWhile_of_no_findIdx {rest : Bytes} (none : rest.findIdx? (· = 0) = none) :
    rest.takeWhile (· ≠ 0) = rest := by
  rw [List.findIdx?_eq_none_iff] at none
  have all : ∀ byte ∈ rest, byte ≠ 0 := fun byte member => by simpa using none byte member
  rw [List.takeWhile_eq_take_findIdx_not, List.findIdx_eq_length.mpr (by simpa using all),
    List.take_length]

theorem cString_mirrors : cString.Mirrors Decoder.cString := by
  intro window inside
  obtain ⟨bound, small⟩ := inside
  have rest : slice window.data window.position window.data.length =
      .ok window.cursor.rest := by
    rw [slice_ok bound (Nat.le_refl _), List.take_of_length_le (by simp)]
    rfl
  have left : window.cursor.rest.length = window.data.length - window.position := by
    simp [Window.cursor]
  simp only [cString, rest, Outcome.ok_bind]
  cases first : window.cursor.rest.findIdx? (· = 0) with
  | none =>
    have chunk := takeWhile_of_no_findIdx first
    refine ⟨window, rfl, ⟨bound, small⟩, ?_, ?_⟩
    · rw [add_ok (by omega)]
      simp only [Decoder.cString, chunk, List.drop_length]
      rfl
    · simp only [Decoder.cString, chunk, List.drop_length]
  | some length =>
    obtain ⟨within, chunk⟩ := takeWhile_of_findIdx first
    have size : (window.cursor.rest.take length).length = length := by
      rw [List.length_take]
      omega
    have cut : slice window.cursor.rest 0 length = .ok (window.cursor.rest.take length) := by
      rw [slice_ok (Nat.zero_le _) (Nat.le_of_lt within)]
      simp
    have onward : window.cursor.rest.drop length =
        window.cursor.rest[length] :: window.cursor.rest.drop (length + 1) :=
      List.drop_eq_getElem_cons within
    simp only [Decoder.cString, chunk, size, onward, cut, Outcome.ok_bind]
    cases textOfBytes? (window.cursor.rest.take length) with
    | none => exact ⟨window, rfl, ⟨bound, small⟩, rfl, rfl⟩
    | some text =>
      dsimp only
      rw [add_ok (by omega), Outcome.ok_bind, add_ok (by omega)]
      refine ⟨{ window with position := window.position + (length + 1) }, rfl, ⟨?_, small⟩, rfl, ?_⟩
      · dsimp only
        omega
      · simp [Window.cursor, List.drop_drop, Nat.add_assoc]

end Scan

end Precompiled.Blob
