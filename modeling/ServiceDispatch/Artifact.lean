import ServiceDispatch.Construction
import ServiceDispatch.DispatchSource
import ServiceDispatch.Feed
import ServiceDispatch.Files.Path

/-!
# Artifacts

The outcome of a pass over a crate: the rules, what is left out, and the source text of the
generated function. A pass either gives a whole artifact or fails with one cause.
-/

namespace ServiceDispatch

open Files (FilePath)

/-- Why a pass fails. -/
inductive PassError where
  | missingSource (directory : FilePath)
  | unreadable (file : FilePath)
  | unparsable (file : FilePath)
  | unresolvedPayload (error : UnresolvedPayload)
  | unwritable (file : FilePath)
  | missingVariable (name : String)
deriving DecidableEq, Repr, Inhabited

namespace PassError

/-- The text of an error. For a file it ends before the cause, which another party words. -/
def message : PassError → String
  | .missingSource directory => "source directory " ++ directory.text ++ " does not exist"
  | .unreadable file => "failed to read " ++ file.text
  | .unparsable file => "failed to parse " ++ file.text
  | .unresolvedPayload error => error.message
  | .unwritable file => "failed to write " ++ file.text
  | .missingVariable name => "environment variable " ++ name ++ " is not set"

end PassError

/-- The outcome of a pass. -/
structure Artifact where
  source : String
  table : DispatchTable
  excluded : List Excluded
deriving DecidableEq, Repr, Inhabited

namespace Artifact

/-- The artifact of a selection. -/
def ofSelection (settings : Settings) (s : Selection) : Artifact :=
  ⟨s.table.source settings, s.table, s.excluded⟩

/-- The artifact of the services among some candidates. -/
def ofCandidates (resolver : Resolver) (settings : Settings) (candidates : List Candidate) :
    Except PassError Artifact :=
  match Selection.ofCandidates resolver settings candidates with
  | .ok selection => .ok (ofSelection settings selection)
  | .error error => .error (.unresolvedPayload error)

/-- The artifact of a feed. -/
def ofFeed (settings : Settings) (feed : Feed) : Except PassError Artifact :=
  ofCandidates (.ofTable feed.symbols) settings feed.candidates

end Artifact

end ServiceDispatch
