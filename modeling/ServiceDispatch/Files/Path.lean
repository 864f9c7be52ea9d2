import ServiceDispatch.Text.Split

/-!
# File paths

A file path is a text whose names stand between slashes. Empty names and inner single dots do
not count; a single dot counts only as the first name. Two paths are the same if their
components are.
-/

namespace ServiceDispatch.Files

/-- A step of a file path. -/
inductive Component where
  | root
  | here
  | up
  | name (text : String)
deriving DecidableEq, Repr

/-- A file path, as written. -/
structure FilePath where
  text : String
deriving DecidableEq, Repr, Inhabited

namespace FilePath

/-- The texts between the slashes. -/
def names (p : FilePath) : List String := Text.splitAtChar '/' p.text

/-- The step that a text between two slashes stands for, if it counts. -/
def componentOf? (name : String) : Option Component :=
  if name = "" ∨ name = "." then none
  else if name = ".." then some .up
  else some (.name name)

/-- The components of a path. -/
def components (p : FilePath) : List Component :=
  let body := p.names.filterMap componentOf?
  if p.text.toList.head? = some '/' then .root :: body
  else if p.names.head? = some "." then .here :: body
  else body

/-- What follows the components of `base`, if the path starts with them. -/
def relativeTo? (p base : FilePath) : Option (List Component) :=
  if base.components.isPrefixOf p.components then
    some (p.components.drop base.components.length)
  else none

/-- The path of `child` inside `p`; an absolute `child` stands alone. -/
def join (p : FilePath) (child : String) : FilePath :=
  if child.toList.head? = some '/' ∨ p.text = "" then ⟨child⟩
  else if p.text.toList.getLast? = some '/' then ⟨p.text ++ child⟩
  else ⟨p.text ++ "/" ++ child⟩

/-- The components above the last one; a path that ends at the root has none. -/
def parent? (p : FilePath) : Option (List Component) :=
  match p.components.getLast? with
  | none | some .root => none
  | some _ => some p.components.dropLast

/-- The last name of a path. -/
def fileName? (p : FilePath) : Option String :=
  match p.components.getLast? with
  | some (.name text) => some text
  | _ => none

/-- The part of the last name after its last dot, if something stands before that dot. -/
def extension? (p : FilePath) : Option String := do
  let name ← p.fileName?
  let pieces := Text.splitAtChar '.' name
  let before := String.intercalate "." pieces.dropLast
  if pieces.length ≤ 1 ∨ before = "" then none else pieces.getLast?

end FilePath

namespace Component

/-- How a component is written. -/
def text : Component → String
  | .root => "/"
  | .here => "."
  | .up => ".."
  | .name text => text

end Component

end ServiceDispatch.Files
