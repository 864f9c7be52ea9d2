import ServiceDispatch.Files.Path

/-!
# File trees

The directories and files below a working directory. A path is followed name by name from the
working directory; it leads nowhere if it goes through something that is not a directory.
-/

namespace ServiceDispatch.Files

/-- The names that lead from the working directory to a place. -/
abbrev Location := List String

/-- What a file holds. -/
inductive FileContent where
  | text (text : String)
  /-- Bytes that are no text. -/
  | binary (bytes : List UInt8)
deriving DecidableEq, Repr, Inhabited

namespace FileContent

/-- The content with the given bytes, which are a text if they are well formed UTF-8. -/
def ofBytes (bytes : List UInt8) : FileContent :=
  match String.fromUTF8? ⟨bytes.toArray⟩ with
  | some decoded => .text decoded
  | none => .binary bytes

/-- The text of a file, if it is one. -/
def text? : FileContent → Option String
  | .text held => some held
  | .binary _ => none

end FileContent

/-- What stands at a place. -/
inductive FileNode where
  | directory
  | file (content : FileContent)
deriving DecidableEq, Repr, Inhabited

/-- The directories and files below the working directory. -/
structure FileTree where
  nodes : List (Location × FileNode) := []
deriving Repr, Inhabited

namespace FileTree

/-! ## Looking -/

/-- What stands at a place. -/
def node? (tree : FileTree) (location : Location) : Option FileNode :=
  if location = [] then some .directory else tree.nodes.lookup location

/-- Whether a directory stands at a place. -/
def hasDirectory (tree : FileTree) (location : Location) : Bool :=
  tree.node? location == some .directory

/-- The place that names lead to from a directory. -/
def follow (tree : FileTree) : Location → List String → Option Location
  | location, [] => some location
  | location, name :: rest =>
    if !tree.hasDirectory location then none
    else if name = "" ∨ name = "." then tree.follow location rest
    else if name = ".." then
      if location = [] then none else tree.follow location.dropLast rest
    else if (tree.node? (location ++ [name])).isSome then tree.follow (location ++ [name]) rest
    else none

/-- Whether a path starts at the working directory. -/
def isRelative (path : FilePath) : Bool := path.text ≠ "" && path.text.toList.head? ≠ some '/'

/-- The place of what a path names. -/
def locate? (tree : FileTree) (path : FilePath) : Option Location :=
  if isRelative path then tree.follow [] path.names else none

/-- What a path names. -/
def find? (tree : FileTree) (path : FilePath) : Option FileNode :=
  (tree.locate? path).bind tree.node?

/-- Whether a path names a directory. -/
def isDirectory (tree : FileTree) (path : FilePath) : Bool := tree.find? path == some .directory

/-- The content of the file that a path names. -/
def content? (tree : FileTree) (path : FilePath) : Option FileContent :=
  match tree.find? path with
  | some (.file content) => some content
  | _ => none

/-- Whether a path names a file. -/
def isFile (tree : FileTree) (path : FilePath) : Bool := (tree.content? path).isSome

/-- The text of the file that a path names. -/
def text? (tree : FileTree) (path : FilePath) : Option String :=
  (tree.content? path).bind FileContent.text?

/-! ## Walking -/

/-- Whether one place comes before another: names are compared one by one, and a directory comes
before what is in it. -/
def comesBefore : Location → Location → Bool
  | [], _ => true
  | _ :: _, [] => false
  | a :: as, b :: bs => a < b || (a == b && comesBefore as bs)

/-- Everything in a directory at any depth, in order, each with the names that lead to it from
the directory. -/
def below (tree : FileTree) (directory : Location) : List (Location × FileNode) :=
  let inside := tree.nodes.filter fun (location, _) =>
    directory.isPrefixOf location && directory.length < location.length
  (inside.mergeSort fun a b => comesBefore a.1 b.1).map fun (location, node) =>
    (location.drop directory.length, node)

/-- A directory and everything in it, each with its path. -/
def walk (tree : FileTree) (directory : FilePath) : List (FilePath × FileNode) :=
  match tree.locate? directory with
  | some location =>
    (directory, .directory) :: (tree.below location).map fun (names, node) =>
      (names.foldl FilePath.join directory, node)
  | none => []

/-! ## Changing -/

/-- Put something at a place. -/
def set (tree : FileTree) (location : Location) (node : FileNode) : FileTree :=
  ⟨tree.nodes.filter (·.1 ≠ location) ++ [(location, node)]⟩

/-- Make the directories of a path from a place on. A file in the way is a failure, which leaves
the directories made before it. -/
def makeDirectories (tree : FileTree) : Location → List Component → FileTree × Option Location
  | location, [] => (tree, some location)
  | location, .here :: rest => tree.makeDirectories location rest
  | _, .root :: _ => (tree, none)
  | location, .up :: rest =>
    if location = [] then (tree, none) else tree.makeDirectories location.dropLast rest
  | location, .name name :: rest =>
    let next := location ++ [name]
    match tree.node? next with
    | some .directory => tree.makeDirectories next rest
    | some (.file _) => (tree, none)
    | none => (tree.set next .directory).makeDirectories next rest

/-- The place of a file that may be written at a path: its directory exists, and the path does
not name a directory. -/
def writable? (tree : FileTree) (path : FilePath) : Option Location := do
  guard (isRelative path)
  let name ← path.names.getLast?
  guard (name ≠ "" ∧ name ≠ "." ∧ name ≠ "..")
  let directory ← tree.follow [] path.names.dropLast
  guard (tree.hasDirectory directory)
  let location := directory ++ [name]
  if tree.hasDirectory location then none else some location

/-- Write a file with the directories above it. A failure may leave new directories. -/
def write (tree : FileTree) (path : FilePath) (content : FileContent) : FileTree × Bool :=
  match tree.makeDirectories [] (path.parent?.getD []) with
  | (made, none) => (made, false)
  | (made, some _) =>
    match made.writable? path with
    | some location => (made.set location (.file content), true)
    | none => (made, false)

/-- Remove what a path names, with everything in it. -/
def remove (tree : FileTree) (path : FilePath) : FileTree :=
  match tree.locate? path with
  | some location => ⟨tree.nodes.filter fun (other, _) => !location.isPrefixOf other⟩
  | none => tree

end FileTree

end ServiceDispatch.Files
