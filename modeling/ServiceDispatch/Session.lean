import ServiceDispatch.CrateScan

/-!
# Sessions

A session changes files and runs passes over them. It keeps the artifact of the last pass that
succeeded.
-/

namespace ServiceDispatch

open Files (FilePath FileTree FileContent)

/-- The files and the current artifact of a session. -/
structure Session where
  files : FileTree := {}
  artifact : Option Artifact := none

/-- A step of a session. -/
inductive SessionStep where
  | put (path : FilePath) (content : FileContent)
  | makeDirectory (path : FilePath)
  | remove (path : FilePath)
  | generate (directory : FilePath)
  | generateTo (directory output : FilePath)
  | writeTo (output : FilePath)
deriving DecidableEq, Repr

/-- What a step answers. -/
inductive SessionReply where
  | none
  /-- A pass succeeded. -/
  | generated (artifact : Artifact)
  /-- A write succeeded; the file may have been up to date. -/
  | written (changed : Bool)
  | failed (error : PassError)
deriving DecidableEq, Repr

namespace Session

/-- Take a step. -/
def step (settings : Settings) (s : Session) : SessionStep → Session × SessionReply
  | .put path content => ({ s with files := (s.files.write path content).1 }, .none)
  | .makeDirectory path =>
    ({ s with files := (s.files.makeDirectories [] path.components).1 }, .none)
  | .remove path => ({ s with files := s.files.remove path }, .none)
  | .generate directory =>
    match Artifact.ofCrate settings s.files directory with
    | .ok artifact => ({ s with artifact := some artifact }, .generated artifact)
    | .error error => (s, .failed error)
  | .generateTo directory output =>
    match Artifact.generateTo settings s.files directory output with
    | (files, .ok (artifact, _)) => (⟨files, some artifact⟩, .generated artifact)
    | (files, .error error) => ({ s with files }, .failed error)
  | .writeTo output =>
    match s.artifact with
    | Option.none => (s, .none)
    | some artifact =>
      match artifact.writeTo s.files output with
      | (files, .ok changed) => ({ s with files }, .written changed)
      | (files, .error error) => ({ s with files }, .failed error)

/-- Take steps, one after the other. -/
def run (settings : Settings) (s : Session) (steps : List SessionStep) : Session :=
  steps.foldl (fun s step => (s.step settings step).1) s

end Session

end ServiceDispatch
