import ServiceDispatch.CrateScan
import ServiceDispatch.Dotenv

/-!
# Build scripts

A pass that runs while a crate is built. The directories come from the variables of the build,
and the build is told on which files and variables the outcome depends.
-/

namespace ServiceDispatch

open Files (FilePath FileTree)

/-- How a build script runs. What is not given comes from the variables of the build. -/
structure BuildScript where
  settings : Option Settings := none
  /-- The source directory. -/
  directory : Option FilePath := none
  /-- The name of the file to write. -/
  output : String := "ipc_dispatch.rs"

namespace BuildScript

/-- What a build script does: the lines it prints, the files after it, and the outcome. -/
structure Outcome where
  lines : List String
  files : FileTree
  result : Except PassError Artifact

/-- The line that makes the build depend on a file. -/
def fileLine (path : FilePath) : String := "cargo:rerun-if-changed=" ++ path.text

/-- The line that makes the build depend on a variable. -/
def variableLine (name : String) : String := "cargo:rerun-if-env-changed=" ++ name

/-- The directory of a variable. -/
def directoryOf? (env : Environment) (name : String) : Option FilePath :=
  (env.get? name).map FilePath.mk

/-- The source directory and the output directory. -/
def directories (script : BuildScript) (env : Environment) :
    Except PassError (FilePath × FilePath) := do
  let source ← match script.directory, directoryOf? env "CARGO_MANIFEST_DIR" with
    | some directory, _ => pure directory
    | none, some manifest => pure (manifest.join "src")
    | none, none => throw (.missingVariable "CARGO_MANIFEST_DIR")
  match directoryOf? env "OUT_DIR" with
  | some output => return (source, output)
  | none => throw (.missingVariable "OUT_DIR")

/-- Run a build script. The environment files beside the manifest are loaded before the settings
are read. -/
def run (script : BuildScript) (env : Environment) (files : FileTree) : Outcome :=
  match script.directories env with
  | .error error => ⟨[], files, .error error⟩
  | .ok (source, output) =>
    let (env, loaded) := match directoryOf? env "CARGO_MANIFEST_DIR" with
      | some manifest => Dotenv.loadProject env files manifest
      | none => (env, [])
    let lines := (loaded ++ [source]).map fileLine ++ Settings.variableNames.map variableLine
    let settings := script.settings.getD (Settings.ofEnvironment env)
    let (after, result) := Artifact.generateTo settings files source (output.join script.output)
    ⟨lines, after, result.map (·.1)⟩

end BuildScript

end ServiceDispatch
