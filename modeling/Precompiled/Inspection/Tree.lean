import Precompiled.Bytes
import Precompiled.Handle

/-! Values as trees of named parts, the form in which tools show them. A tree
keeps apart what a notation may have to write differently: small numbers from
64-bit words, texts from byte strings. -/
namespace Precompiled

inductive Tree where
  /-- The absence of a value. -/
  | nothing
  | flag (value : Bool)
  | number (value : Int)
  /-- A number of up to 64 bits, which not every reader of numbers can hold. -/
  | word (value : Nat)
  | text (value : String)
  | bytes (value : Bytes)
  | list (items : List Tree)
  | record (fields : List (String × Tree))
  deriving Inhabited, Repr

/-- Values that can be shown. -/
class Inspect (α : Type) where
  inspect : α → Tree

export Inspect (inspect)

namespace Inspect

instance : Inspect Tree := ⟨id⟩

/-- Where there is nothing to tell, there is nothing to show. -/
instance : Inspect Unit := ⟨fun () => .nothing⟩

instance : Inspect Bool := ⟨.flag⟩

instance : Inspect String := ⟨.text⟩

instance : Inspect Nat := ⟨fun value => .number value⟩

instance : Inspect UInt16 := ⟨fun value => .number value.toNat⟩

instance : Inspect UInt32 := ⟨fun value => .number value.toNat⟩

instance : Inspect Int32 := ⟨fun value => .number value.toInt⟩

instance : Inspect UInt64 := ⟨fun value => .word value.toNat⟩

instance {entity : Entity} : Inspect (Handle entity) := ⟨fun value => .word value.raw.toNat⟩

instance [Inspect α] : Inspect (Option α)
  where inspect
    | none => .nothing
    | some value => inspect value

instance [Inspect α] : Inspect (List α) := ⟨fun items => .list (items.map inspect)⟩

instance : Inspect Bytes := ⟨.bytes⟩

/-- A failure is shown in place of the value it prevented. -/
instance [Inspect ε] [Inspect α] : Inspect (Except ε α)
  where inspect
    | .error error => inspect error
    | .ok value => inspect value

instance [Inspect α] [Inspect β] : Inspect (α × β) :=
  ⟨fun (first, second) => .list [inspect first, inspect second]⟩

end Inspect

end Precompiled
