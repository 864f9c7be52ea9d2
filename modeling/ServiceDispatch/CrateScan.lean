import ServiceDispatch.Artifact
import ServiceDispatch.Files.FileTree
import ServiceDispatch.Files.ModulePath

/-!
# Scanning a crate

A crate is read from the files below its source directory, in the order of a sorted walk. A
file that cannot be read or is not well formed ends the pass: leaving it out could silently
drop services.
-/

namespace ServiceDispatch

open Files (FilePath FileTree FileNode)

namespace Source

/-- The source in a file with a known module. -/
def ofFile (module : ItemPath) (path : FilePath) (node : FileNode) : Except PassError Source :=
  match node with
  | .file (.text text) =>
    match ofText? module text with
    | some source => .ok source
    | none => .error (.unparsable path)
  | _ => .error (.unreadable path)

/-- The files of a crate with their modules. A binary's root beside a library's does not count. -/
def filesOf (tree : FileTree) (directory : FilePath) : List (ItemPath × FilePath × FileNode) :=
  let hasLibrary := tree.isFile (directory.join "lib.rs")
  (tree.walk directory).filterMap fun (path, node) =>
    if path.extension? ≠ some "rs" then none
    else if hasLibrary && path.components == (directory.join "main.rs").components then none
    else (Files.modulePath? directory path).map fun module => (module, path, node)

/-- The sources of a crate. -/
def ofCrate (tree : FileTree) (directory : FilePath) : Except PassError (List Source) :=
  if tree.isDirectory directory then
    (filesOf tree directory).mapM fun (module, path, node) => ofFile module path node
  else .error (.missingSource directory)

end Source

/-- The feed of a crate. -/
def Feed.ofCrate (settings : Settings) (tree : FileTree) (directory : FilePath) :
    Except PassError Feed :=
  (Source.ofCrate tree directory).map (Feed.ofSources settings)

namespace Artifact

/-- The artifact of a crate. -/
def ofCrate (settings : Settings) (tree : FileTree) (directory : FilePath) :
    Except PassError Artifact := do
  ofFeed settings (← Feed.ofCrate settings tree directory)

/-- Whether a file holds exactly the source text of an artifact. -/
def isCurrent (artifact : Artifact) (tree : FileTree) (path : FilePath) : Bool :=
  tree.text? path == some artifact.source

/-- Write the source text of an artifact to a file, unless the file holds it already; whether it
was written is returned. -/
def writeTo (artifact : Artifact) (tree : FileTree) (path : FilePath) :
    FileTree × Except PassError Bool :=
  if artifact.isCurrent tree path then (tree, .ok false)
  else
    match tree.write path (.text artifact.source) with
    | (after, true) => (after, .ok true)
    | (after, false) => (after, .error (.unwritable path))

/-- Generate the artifact of a crate and write it; whether it was written is returned too. If
the pass fails nothing is written. -/
def generateTo (settings : Settings) (tree : FileTree) (directory output : FilePath) :
    FileTree × Except PassError (Artifact × Bool) :=
  match ofCrate settings tree directory with
  | .error error => (tree, .error error)
  | .ok artifact =>
    let (after, written) := artifact.writeTo tree output
    (after, written.map (artifact, ·))

end Artifact

end ServiceDispatch
