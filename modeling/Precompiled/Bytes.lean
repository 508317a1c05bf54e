/-! Byte strings and the words stored in them. Every multi-byte word of a blob
is little-endian, so one width-generic pair of functions serves them all; a
fixed-width word is written through its value as a natural number. -/
namespace Precompiled

/-- A byte string. Blobs are a few kilobytes, and a list is the form in which
what precedes and what follows a record can be named. -/
abbrev Bytes := List UInt8

/-- The `width` low bytes of `value`, least significant first. -/
def littleEndian : Nat → Nat → Bytes
  | 0, _ => []
  | width + 1, value => UInt8.ofNat value :: littleEndian width (value / 256)

/-- The number whose bytes, least significant first, are `bytes`. -/
def ofLittleEndian : Bytes → Nat
  | [] => 0
  | byte :: rest => byte.toNat + 256 * ofLittleEndian rest

@[simp] theorem littleEndian_length (width value : Nat) :
    (littleEndian width value).length = width := by
  induction width generalizing value with
  | zero => rfl
  | succ width ih => simp [littleEndian, ih]

/-- Reading loses nothing: the bytes are those of the number read. -/
theorem littleEndian_ofLittleEndian (bytes : Bytes) :
    littleEndian bytes.length (ofLittleEndian bytes) = bytes := by
  induction bytes with
  | nil => rfl
  | cons byte rest ih =>
    have low : UInt8.ofNat (byte.toNat + 256 * ofLittleEndian rest) = byte := by
      apply UInt8.toNat_inj.mp
      have := byte.toNat_lt
      simp only [UInt8.toNat_ofNat']
      omega
    have high : (byte.toNat + 256 * ofLittleEndian rest) / 256 = ofLittleEndian rest := by
      have := byte.toNat_lt
      omega
    simp only [List.length_cons, ofLittleEndian, littleEndian, low, high, ih]

/-- The UTF-8 bytes of a text. -/
def textBytes (text : String) : Bytes :=
  text.toUTF8.data.toList

/-- The text whose UTF-8 bytes are `bytes`, if they are well formed. -/
def textOfBytes? (bytes : Bytes) : Option String :=
  String.fromUTF8? ⟨bytes.toArray⟩

end Precompiled
