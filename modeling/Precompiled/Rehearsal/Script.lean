import Precompiled.Engine.Request

/-! An engine that answers from tables. Its answers depend on nothing but the
request, which makes a run with it repeatable. -/
namespace Precompiled.Rehearsal

/-- Keys with their values, each key at most once. -/
abbrev Table (κ α : Type) := List (κ × α)

/-- Gives a key another value, or none at all. -/
def Table.define [DecidableEq κ] (key : κ) (value : Option α) (table : Table κ α) : Table κ α :=
  let others := table.filter fun entry => entry.1 ≠ key
  match value with
  | some value => (key, value) :: others
  | none => others

/-- What the scripted engine knows. -/
structure Script where
  /-- Classes by name and by the loader that asks for them. -/
  classes : Table (String × LoaderId) ClassRef := []
  /-- Methods by their class and their selector. -/
  methods : Table (ClassRef × String) LiveMethod := []
  /-- Metadata by descriptor, the same for every class. -/
  metadata : Table String MetadataRef := []
  /-- Heap objects by descriptor. -/
  objects : Table String ObjectRef := []
  /-- Addresses of routines by name. -/
  routines : Table String Nat := []
  deriving DecidableEq, Repr, Inhabited

/-- Lets the engine find a class by its name and its own loader. -/
def Script.register (view : ClassView) (script : Script) : Script :=
  { script with classes := script.classes.define (view.name, view.loader) (some view.klass) }

/-- Gives a class methods, or takes them away, by their selectors. -/
def Script.declare (klass : ClassRef) (methods : List (String × Option LiveMethod))
    (script : Script) : Script :=
  methods.foldl
    (fun script (selector, method) =>
      { script with methods := script.methods.define (klass, selector) method })
    script

/-- The answer to a request. Notices need none. -/
def Script.answer (script : Script) : (request : Engine.Request) → request.Answer
  | .findClass name loader => script.classes.lookup (name, loader)
  | .findMethod holder name => script.methods.lookup (holder, name.selector)
  | .resolveMetadata descriptor _ => script.metadata.lookup descriptor
  | .resolveObject descriptor => script.objects.lookup descriptor
  | .findRoutine name => script.routines.lookup name
  | .install _ => ()
  | .deoptimize _ => ()

end Precompiled.Rehearsal
