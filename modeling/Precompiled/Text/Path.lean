/-! File paths, as far as naming a library after its file needs them. -/
namespace Precompiled.Text

/-- The steps of a path. Empty steps and single dots lead nowhere and are left
out. -/
def pathSteps (path : String) : List String :=
  ((path.toList.splitOn '/').map String.ofList).filter fun step => step ≠ "" ∧ step ≠ "."

/-- The name of the file that a path leads to, which is its last step. A path
that ends by going up names no file and stands for itself. -/
def fileName (path : String) : String :=
  match (pathSteps path).getLast? with
  | none | some ".." => path
  | some name => name

example : fileName "./lib/./a.aot" = "a.aot" := by decide +kernel

example : fileName "lib/.." = "lib/.." := by decide +kernel

end Precompiled.Text
