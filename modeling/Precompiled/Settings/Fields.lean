import Precompiled.Inspection.Tree
import Precompiled.Text.Json

/-! Settings structures written as JSON. An object gives fields by name: names
that mean nothing are skipped, a name that means something may occur once, and
fields that are absent keep their defaults. An array gives the fields in the
order of their declaration, and may stop early. The same list of fields shows a
structure and reads it. -/
namespace Precompiled.Settings

open Text

/-- One field of a settings structure: its name, how it is shown, and how a
JSON value is stored in it. -/
structure NamedField (σ : Type) where
  name : String
  inspect : σ → Tree
  store : Json → σ → Option σ

namespace NamedField

variable {σ : Type}

def flag (name : String) (get : σ → Bool) (set : Bool → σ → σ) : NamedField σ where
  name
  inspect settings := .flag (get settings)
  store
    | .bool value, settings => some (set value settings)
    | _, _ => none

def integer (name : String) (get : σ → Int32) (set : Int32 → σ → σ) : NamedField σ where
  name
  inspect settings := .number (get settings).toInt
  store
    | .number value, settings => value.toInt32?.map fun value => set value settings
    | _, _ => none

def text (name : String) (get : σ → String) (set : String → σ → σ) : NamedField σ where
  name
  inspect settings := .text (get settings)
  store
    | .string value, settings => value.toString?.map fun value => set value settings
    | _, _ => none

end NamedField

variable {σ : Type}

/-- Settings by the names of their fields. -/
def inspectFields (fields : List (NamedField σ)) (settings : σ) : Tree :=
  .record (fields.map fun field => (field.name, field.inspect settings))

/-- Stores the members of an object. `seen` holds the names that were stored
before. -/
def storeMembers (fields : List (NamedField σ)) :
    List (JsonString × Json) → List String → σ → Option σ
  | [], _, settings => some settings
  | (name, value) :: rest, seen, settings => do
    let name ← name.toString?
    match fields.find? fun field => field.name == name with
    | none => storeMembers fields rest seen settings
    | some field =>
      if seen.contains name then none
      else storeMembers fields rest (name :: seen) (← field.store value settings)

/-- Stores the items of an array in the fields, in order. -/
def storeItems : List (NamedField σ) → List Json → σ → Option σ
  | _, [], settings => some settings
  | [], _ :: _, _ => none
  | field :: fields, value :: rest, settings => do
    storeItems fields rest (← field.store value settings)

/-- The settings a JSON text describes, starting from `defaults`. -/
def ofJson? (fields : List (NamedField σ)) (defaults : σ) (text : String) : Option σ := do
  match ← Json.parse? text with
  | .object members => storeMembers fields members [] defaults
  | .array items => storeItems fields items defaults
  | _ => none

end Precompiled.Settings
