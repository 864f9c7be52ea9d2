import ServiceDispatch.CommandLine.Run

/-!
# The program

Reads the files and variables that a command depends on, runs it, and prints and writes what
comes out. Nothing is decided here.
-/

namespace ServiceDispatch.Program

open CommandLine (Command Outcome)
open Files (FileContent FileNode FilePath FileTree Location)

/-- The files and directories below a path, read from the working directory. -/
partial def readBelow (location : Location) : IO FileTree := do
  let here ← IO.currentDir
  let place := here / "/".intercalate location
  if ← place.isDir then
    let entries ← place.readDir
    let start : FileTree := if location.isEmpty then {} else ⟨[(location, .directory)]⟩
    entries.toList.foldlM (fun tree entry => do
      let inner ← readBelow (location ++ [entry.fileName])
      return ⟨tree.nodes ++ inner.nodes⟩) start
  else if ← place.pathExists then
    try
      let bytes ← IO.FS.readBinFile place
      return ⟨[(location, .file (.ofBytes bytes.toList))]⟩
    catch _ => return ⟨[(location, .file (.binary [255]))]⟩
  else return {}

/-- The names of a path below the working directory. -/
def locationOf (path : FilePath) : Location := path.names.filter fun name => name ≠ "" ∧ name ≠ "."

/-- The directories above a place. -/
def directoriesAbove (location : Location) : IO FileTree := do
  let above := (List.range location.length).map location.take
  let present ← above.filterM fun place => do
    if place.isEmpty then return false
    return ← (((← IO.currentDir) / "/".intercalate place).isDir)
  return ⟨present.map (·, .directory)⟩

/-- The files that some paths lead to, with the directories above them. -/
def readPaths (paths : List FilePath) : IO FileTree := do
  paths.foldlM (fun tree path => do
    let location := locationOf path
    let above ← directoriesAbove location
    let inner ← readBelow location
    let fresh := (above.nodes ++ inner.nodes).filter fun node => (tree.node? node.1).isNone
    return ⟨tree.nodes ++ fresh⟩) {}

/-- The words of a text, which may be names of variables. -/
def wordsOf (text : String) : List String :=
  ((Text.splitAtEach (fun c => !Dotenv.isNameChar c) text.toList).filter (· ≠ [])).map
    String.ofList

/-- The variables that the settings and the environment files name. -/
def readEnvironment (files : FileTree) : IO Environment := do
  let texts := Dotenv.fileNames.filterMap fun name => files.text? ⟨name⟩
  let names := (Settings.variableNames ++ texts.flatMap wordsOf).eraseDups
  let bindings ← names.filterMapM fun name => do
    return (← IO.getEnv name).map (name, ·)
  return ⟨bindings⟩

/-- Write the files that a command changed. -/
def writeChanges (before after : FileTree) : IO Unit := do
  let here ← IO.currentDir
  for (location, node) in after.nodes do
    if before.node? location ≠ some node then
      let place := here / "/".intercalate location
      match node with
      | .directory => IO.FS.createDirAll place
      | .file (.text text) => IO.FS.writeFile place text
      | .file (.binary _) => pure ()

/-- Run the command that arguments ask for, and return its status. -/
def runOnce (arguments : List String) : IO UInt32 := do
  let command := Command.ofArguments? arguments
  let paths := (command.map Command.source).toList ++ (command.bind Command.output?).toList
  let files ← readPaths (Dotenv.fileNames.map FilePath.mk ++ paths)
  let outcome := CommandLine.run arguments (← readEnvironment files) files
  writeChanges files outcome.files
  (← IO.getStdout).putStr outcome.output
  if let some failure := outcome.failure then
    (← IO.getStderr).putStr ("Error: " ++ failure.message ++ "\n")
  return outcome.status.toUInt32

/-- Run a command whenever what it scans changes. -/
partial def watch (arguments : List String) (source : FilePath) (seen : FileTree) : IO Unit := do
  IO.sleep 500
  let now ← readPaths [source]
  if now.nodes == seen.nodes then watch arguments source seen
  else
    discard (runOnce arguments)
    watch arguments source (← readPaths [source])

end ServiceDispatch.Program

open ServiceDispatch in
/-- The program. -/
def main (arguments : List String) : IO UInt32 := do
  let status ← Program.runOnce arguments
  match CommandLine.Command.ofArguments? arguments with
  | some command =>
    if command.repeats && status == 0 then
      Program.watch arguments command.source (← Program.readPaths [command.source])
    return status
  | none => return status
