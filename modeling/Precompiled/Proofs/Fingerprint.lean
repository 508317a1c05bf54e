import Precompiled.Proofs.Blob.Codec
import Precompiled.Shape

/-! What a fingerprint tells apart. The canonical bytes of a shape carry no
separators: every part is optional, counted or behind its own length. So each
part can be told from the bytes in front of whatever follows, and part by part
the bytes determine the shape. Two shapes then share a fingerprint only where
the digest itself fails to tell their bytes apart. -/
namespace Precompiled

variable {α : Type} {rest other : Bytes}

/-- Numbers that fit the width are told apart by their bytes. -/
theorem littleEndian_append {width first second : Nat} (small : first < 256 ^ width)
    (little : second < 256 ^ width)
    (same : littleEndian width first ++ rest = littleEndian width second ++ other) :
    first = second ∧ rest = other := by
  obtain ⟨bytes, onward⟩ := List.append_inj same (by simp)
  have value := congrArg ofLittleEndian bytes
  rw [ofLittleEndian_littleEndian, ofLittleEndian_littleEndian, Nat.mod_eq_of_lt small,
    Nat.mod_eq_of_lt little] at value
  exact ⟨value, onward⟩

/-! ## Encodings that end by themselves -/

/-- What was encoded, and where its bytes end, shows in the bytes whatever
follows them. -/
def Delimits (among : α → Prop) (encode : α → Bytes) : Prop :=
  ∀ first second rest other, among first → among second →
    encode first ++ rest = encode second ++ other → first = second ∧ rest = other

namespace Delimits

variable {among : α → Prop} {encode : α → Bytes}

theorem injective (delimits : Delimits among encode) {first second : α} (one : among first)
    (two : among second) (same : encode first = encode second) : first = second :=
  (delimits first second [] [] one two (by simpa using same)).1

/-- Items in a row are told apart if their number is known. -/
theorem flatMap (delimits : Delimits among encode) {items others : List α}
    (count : items.length = others.length) (allowed : ∀ item ∈ items, among item)
    (permitted : ∀ item ∈ others, among item)
    (same : items.flatMap encode ++ rest = others.flatMap encode ++ other) :
    items = others ∧ rest = other := by
  induction items generalizing others with
  | nil =>
    obtain rfl := List.length_eq_zero_iff.mp count.symm
    exact ⟨rfl, same⟩
  | cons item items ih =>
    cases others with
    | nil => cases count
    | cons rival others =>
      simp only [List.flatMap_cons, List.append_assoc] at same
      obtain ⟨rfl, onward⟩ := delimits _ _ _ _ (allowed _ List.mem_cons_self)
        (permitted _ List.mem_cons_self) same
      obtain ⟨rfl, ended⟩ := ih (by simpa using count)
        (fun item member => allowed item (List.mem_cons_of_mem _ member))
        (fun item member => permitted item (List.mem_cons_of_mem _ member)) onward
      exact ⟨rfl, ended⟩

end Delimits

namespace Shape

/-- Counts of texts and lists are 32 bits wide. -/
def countBound : Nat := 2 ^ 32

/-- A text whose byte count fits. -/
def ShortText (text : String) : Prop :=
  (textBytes text).length < countBound

/-- A list whose length fits, of items that are fit to be written. -/
def ShortList (among : α → Prop) (items : List α) : Prop :=
  items.length < countBound ∧ ∀ item ∈ items, among item

def ShortField (field : FieldShape) : Prop :=
  ShortText field.name ∧ ShortText field.descriptor

def ShortMethod (method : MethodShape) : Prop :=
  ShortText method.name ∧ ShortText method.signature

/-- Every text and every list of the shape is shorter than its count can say. -/
structure Short (shape : Shape) : Prop where
  name : ShortText shape.name
  superclass : ∀ name, shape.superclass = some name → ShortText name
  interfaces : ShortList ShortText shape.interfaces
  fields : ShortList ShortField shape.fields
  methods : ShortList ShortMethod shape.methods

theorem countedText_delimits : Delimits ShortText countedText := by
  intro first second rest other short small same
  simp only [countedText, List.append_assoc] at same
  obtain ⟨count, same⟩ := littleEndian_append short small same
  obtain ⟨bytes, onward⟩ := List.append_inj same count
  exact ⟨textBytes_injective bytes, onward⟩

theorem countedList_delimits {among : α → Prop} {encode : α → Bytes}
    (delimits : Delimits among encode) : Delimits (ShortList among) (countedList encode) := by
  intro items others rest other short small same
  simp only [countedList, List.append_assoc] at same
  obtain ⟨count, same⟩ := littleEndian_append short.1 small.1 same
  exact delimits.flatMap count short.2 small.2 same

theorem fieldBytes_delimits : Delimits ShortField fieldBytes := by
  rintro ⟨name, descriptor, isStatic⟩ ⟨name', descriptor', isStatic'⟩ rest other short small same
  simp only [fieldBytes, List.append_assoc, List.cons_append, List.nil_append] at same
  obtain ⟨rfl, afterName⟩ := countedText_delimits _ _ _ _ short.1 small.1 same
  obtain ⟨rfl, afterDescriptor⟩ := countedText_delimits _ _ _ _ short.2 small.2 afterName
  obtain ⟨flag, onward⟩ := List.cons.inj afterDescriptor
  obtain rfl : isStatic = isStatic' := by cases isStatic <;> cases isStatic' <;> simp_all
  exact ⟨rfl, onward⟩

theorem methodBytes_delimits : Delimits ShortMethod methodBytes := by
  rintro ⟨name, signature⟩ ⟨name', signature'⟩ rest other short small same
  simp only [methodBytes, List.append_assoc] at same
  obtain ⟨rfl, afterName⟩ := countedText_delimits _ _ _ _ short.1 small.1 same
  obtain ⟨rfl, onward⟩ := countedText_delimits _ _ _ _ short.2 small.2 afterName
  exact ⟨rfl, onward⟩

theorem superclassBytes_delimits :
    Delimits (fun superclass => ∀ name, superclass = some name → ShortText name)
      superclassBytes := by
  intro first second rest other short small same
  cases first with
  | none =>
    cases second with
    | none => exact ⟨rfl, (List.cons.inj same).2⟩
    | some name => cases (List.cons.inj same).1
  | some name =>
    cases second with
    | none => cases (List.cons.inj same).1
    | some name' =>
      obtain ⟨rfl, onward⟩ := countedText_delimits _ _ _ _ (short _ rfl) (small _ rfl)
        (List.cons.inj same).2
      exact ⟨rfl, onward⟩

theorem canonicalBytes_delimits : Delimits Short canonicalBytes := by
  rintro ⟨name, superclass, interfaces, fields, methods⟩
    ⟨name', superclass', interfaces', fields', methods'⟩ rest other short small same
  simp only [canonicalBytes, List.append_assoc] at same
  -- Each part ends by itself, which leaves equal bytes for the parts behind it.
  obtain ⟨rfl, afterName⟩ := countedText_delimits _ _ _ _ short.name small.name same
  obtain ⟨rfl, afterSuperclass⟩ :=
    superclassBytes_delimits _ _ _ _ short.superclass small.superclass afterName
  obtain ⟨rfl, afterInterfaces⟩ := countedList_delimits countedText_delimits _ _ _ _
    short.interfaces small.interfaces afterSuperclass
  obtain ⟨rfl, afterFields⟩ := countedList_delimits fieldBytes_delimits _ _ _ _
    short.fields small.fields afterInterfaces
  obtain ⟨rfl, onward⟩ := countedList_delimits methodBytes_delimits _ _ _ _
    short.methods small.methods afterFields
  exact ⟨rfl, onward⟩

end Shape

/-! ## Fingerprints -/

namespace Digest

theorem sha256_length (message : Bytes) : (sha256 message).length = 32 := by
  simp [sha256]

/-- Two messages that the first eight digest bytes do not tell apart. -/
def Collide (first second : Bytes) : Prop :=
  first ≠ second ∧ (sha256 first).take 8 = (sha256 second).take 8

end Digest

namespace Shape

/-- A fingerprint says as much as eight digest bytes. -/
theorem fingerprint_eq_iff {first second : Shape} :
    first.fingerprint = second.fingerprint ↔
      (Digest.sha256 first.canonicalBytes).take 8 = (Digest.sha256 second.canonicalBytes).take 8 := by
  have bound (shape : Shape) :
      ofLittleEndian ((Digest.sha256 shape.canonicalBytes).take 8) < 2 ^ 64 := by
    have below := ofLittleEndian_lt ((Digest.sha256 shape.canonicalBytes).take 8)
    rwa [List.length_take, Digest.sha256_length] at below
  constructor
  · intro same
    have value := congrArg UInt64.toNat same
    simp only [fingerprint, UInt64.toNat_ofNat_of_lt' (bound _)] at value
    have bytes := congrArg (littleEndian 8) value
    have length (shape : Shape) :
        ((Digest.sha256 shape.canonicalBytes).take 8).length = 8 := by
      rw [List.length_take, Digest.sha256_length]
      rfl
    have back (shape : Shape) := littleEndian_ofLittleEndian
      ((Digest.sha256 shape.canonicalBytes).take 8)
    simp only [length] at back
    rwa [back, back] at bytes
  · intro same
    simp only [fingerprint, same]

/-- The canonical bytes determine the shape. Different shapes have one
fingerprint exactly if the digest does not tell their bytes apart. -/
theorem canonicalBytes_determine {first second : Shape} (short : first.Short)
    (small : second.Short) :
    (first.canonicalBytes = second.canonicalBytes → first = second) ∧
      (first ≠ second → (first.fingerprint = second.fingerprint ↔
        Digest.Collide first.canonicalBytes second.canonicalBytes)) := by
  have determine := canonicalBytes_delimits.injective short small
  refine ⟨determine, fun differ => ?_⟩
  rw [fingerprint_eq_iff]
  constructor
  · intro same
    exact ⟨fun bytes => differ (determine bytes), same⟩
  · exact And.right

/-- A class and its superclass, whose names in a row read `abc`. -/
def splitLate : Shape :=
  { name := "ab", superclass := some "c", fields := [⟨"x", "I", true⟩], methods := [⟨"m", "()V"⟩] }

/-- The same letters, parted elsewhere. -/
def splitEarly : Shape :=
  { splitLate with name := "a", superclass := some "bc" }

theorem canonicalBytes_determine_split : splitLate.Short ∧ splitEarly.Short ∧
    splitLate.canonicalBytes ≠ splitEarly.canonicalBytes ∧
    (splitLate.fingerprint = splitEarly.fingerprint ↔
      Digest.Collide splitLate.canonicalBytes splitEarly.canonicalBytes) := by
  have short : splitLate.Short := by
    constructor <;> simp [splitLate, ShortList, ShortText, ShortField, ShortMethod] <;> decide +kernel
  have small : splitEarly.Short := by
    constructor <;> simp [splitEarly, splitLate, ShortList, ShortText, ShortField, ShortMethod] <;>
      decide +kernel
  obtain ⟨determine, collide⟩ := canonicalBytes_determine short small
  have differ : splitLate ≠ splitEarly := by decide
  exact ⟨short, small, fun same => differ (determine same), collide differ⟩

end Shape

end Precompiled
