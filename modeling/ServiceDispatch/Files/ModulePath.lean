import ServiceDispatch.Files.Path
import ServiceDispatch.ItemPath
import ServiceDispatch.Text.Alphabetic

/-!
# Module paths of files

The path of a source file below the source directory determines the module that it holds:
`a/b.rs` and `a/b/mod.rs` both hold `crate::a::b`, and `lib.rs`, `main.rs` and `mod.rs` at the
top hold the crate root. Files below `bin`, and files whose path is not made of identifiers,
hold no module.
-/

namespace ServiceDispatch.Files

/-- Whether a text is a letter or underscore followed by letters, numbers and underscores. -/
def isIdentifier (s : String) : Bool :=
  match s.toList with
  | [] => false
  | c :: cs =>
    (c == '_' || Text.isAlphabetic c) && cs.all fun d => d == '_' || Text.isAlphanumeric d

/-- The name of a file without the ending `.rs`. -/
def stem? (name : String) : Option String :=
  let cs := name.toList
  if ".rs".toList.isSuffixOf cs then some (String.ofList (cs.take (cs.length - 3))) else none

/-- The module names of a file: its directories, then its stem unless the stem stands for the
directory itself. -/
def moduleNames (directories : List String) (stem : String) : List String :=
  if stem = "mod" ∨ (directories = [] ∧ (stem = "lib" ∨ stem = "main")) then directories
  else directories ++ [stem]

/-- The module that a source file below `src` holds. -/
def modulePath? (src file : FilePath) : Option ItemPath := do
  let parts := (← file.relativeTo? src).map Component.text
  let stem ← stem? (← parts.getLast?)
  let directories := parts.dropLast
  guard (directories.head? ≠ some "bin")
  let names := moduleNames directories stem
  guard (names.all isIdentifier)
  return names.foldl ItemPath.join ItemPath.root

end ServiceDispatch.Files
