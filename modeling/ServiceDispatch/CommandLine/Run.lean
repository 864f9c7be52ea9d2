import ServiceDispatch.CommandLine.Arguments
import ServiceDispatch.CrateScan
import ServiceDispatch.Dotenv

/-!
# Running commands

What a command prints, how it ends, and the files after it.
-/

namespace ServiceDispatch.CommandLine

open Files (FilePath FileTree)

/-- Why a command fails. -/
inductive Failure where
  /-- The arguments are no command. -/
  | usage
  | pass (error : PassError)
  | outOfDate (output : FilePath)
deriving DecidableEq, Repr

namespace Failure

/-- The text of a failure. -/
def message : Failure → String
  | .usage => "the arguments are not understood"
  | .pass error => error.message
  | .outOfDate output => output.text ++ " is out of date, run `ipcgen generate`"

/-- The status that a failure ends with. -/
def status : Failure → Nat
  | .usage => 2
  | _ => 1

end Failure

/-- The outcome of a command. -/
structure Outcome where
  /-- The printed lines. -/
  lines : List String
  failure : Option Failure
  files : FileTree

namespace Outcome

/-- The printed text. -/
def output (outcome : Outcome) : String :=
  String.join (outcome.lines.map (· ++ "\n"))

/-- The status that the command ends with. -/
def status (outcome : Outcome) : Nat := outcome.failure.elim 0 Failure.status

end Outcome

/-! ## Printed lines -/

/-- The line that is printed instead of an empty table. -/
def noServices : String := "No services found."

/-- The numbers of services and of what is left out. -/
def counts (artifact : Artifact) : String :=
  toString artifact.table.length ++ " service(s), " ++ toString artifact.excluded.length ++
    " excluded"

/-- The line that says that a file is up to date. -/
def upToDate (output : FilePath) : String := "✓ " ++ output.text ++ " is up to date"

/-- What is printed about a pass that wrote a file, or found it up to date. -/
def report (artifact : Artifact) (written : Bool) (output : FilePath) : List String :=
  [if artifact.table.isEmpty then noServices else "-> Found " ++ counts artifact,
    if written then "✓ Generated " ++ output.text else upToDate output]

/-- The constructor calls of a rule. -/
def shape (rule : DispatchRule) : String :=
  let payload := rule.parameterized.map fun how =>
    how.constructor ++ "(context, " ++ how.payloadType ++ ")"
  let plain := rule.contextOnly.map fun how => how.constructor ++ "(context)"
  " | ".intercalate (payload.toList ++ plain.toList)

/-- A number that takes at least three columns. -/
def numbered (n : Nat) : String :=
  let digits := (toString n).toList
  String.ofList (List.replicate (3 - digits.length) ' ' ++ digits)

/-- The lines of a table. -/
def tableLines (table : DispatchTable) : List String :=
  table.zipIdx.map fun (rule, i) =>
    numbered (i + 1) ++ ". " ++ rule.target.text ++ " " ++ shape rule

/-- The lines about what is left out. -/
def excludedLines (excluded : List Excluded) : List String :=
  if excluded.isEmpty then []
  else
    "" :: "Excluded:" :: excluded.map fun e => "  - " ++ e.name.text ++ ": " ++ e.reason.message

/-- What is printed about an artifact. -/
def listing (artifact : Artifact) (all : Bool) : List String :=
  (if artifact.table.isEmpty then [noServices] else []) ++ tableLines artifact.table ++
    (if all then excludedLines artifact.excluded else []) ++ ["", "-> " ++ counts artifact]

/-! ## Commands -/

/-- Write the generated function, or check that it is up to date. -/
def generate (settings : Settings) (files : FileTree) (source output : FilePath) (check : Bool) :
    Outcome :=
  let scanning := "Scanning " ++ source.text ++ " for services..."
  if check then
    match Artifact.ofCrate settings files source with
    | .error error => ⟨[scanning], some (.pass error), files⟩
    | .ok artifact =>
      if artifact.isCurrent files output then ⟨[scanning, upToDate output], none, files⟩
      else ⟨[scanning], some (.outOfDate output), files⟩
  else
    match Artifact.generateTo settings files source output with
    | (after, .error error) => ⟨[scanning], some (.pass error), after⟩
    | (after, .ok (artifact, written)) =>
      ⟨scanning :: report artifact written output, none, after⟩

/-- Print the dispatch table. -/
def list (settings : Settings) (files : FileTree) (source : FilePath) (all : Bool) : Outcome :=
  match Artifact.ofCrate settings files source with
  | .error error => ⟨[], some (.pass error), files⟩
  | .ok artifact => ⟨listing artifact all, none, files⟩

namespace Command

/-- Run a command once; whoever calls it repeats it when files change. -/
def run (command : Command) (env : Environment) (files : FileTree) : Outcome :=
  match command with
  | .generate source output check _ overrides =>
    CommandLine.generate (Settings.resolve env overrides) files source output check
  | .list source all overrides =>
    CommandLine.list (Settings.resolve env overrides) files source all

end Command

/-- Run the command that arguments ask for, after loading the environment files. -/
def run (arguments : List String) (env : Environment) (files : FileTree) : Outcome :=
  let (env, _) := Dotenv.loadProject env files ⟨"."⟩
  match Command.ofArguments? arguments with
  | some command => command.run env files
  | none => ⟨[], some .usage, files⟩

end ServiceDispatch.CommandLine
