import ServiceDispatch.Files.Path
import ServiceDispatch.Settings

/-!
# Command line arguments

A command is a word with switches and valued options, in any order and each at most once. An
option has a long name and perhaps a letter; letters may be written together, and a value
follows after an equals sign, after its letter, or as the next argument.
-/

namespace ServiceDispatch.CommandLine

open Files (FilePath)

/-! ## Options -/

/-- An option without a value. -/
inductive Switch where
  | verbose
  | check
  | watch
  | all
deriving DecidableEq, Repr

/-- An option with a value. -/
inductive Valued where
  | source
  | output
  | rootNamespace
  | contextType
  | serviceTrait
  | enclosingType
  | functionName
  | markerPrefix
deriving DecidableEq, Repr

/-- An option of either kind. -/
inductive Flag where
  | switch (switch : Switch)
  | valued (valued : Valued)
deriving DecidableEq, Repr

/-- How an option is written. -/
structure FlagName where
  flag : Flag
  long : String
  letter : Option Char := none
deriving DecidableEq, Repr

/-- The options before a command, which each command has too. -/
def globalFlags : List FlagName := [⟨.switch .verbose, "verbose", some 'v'⟩]

/-- The options that override settings. -/
def settingFlags : List FlagName :=
  [⟨.valued .rootNamespace, "root-namespace", none⟩,
    ⟨.valued .contextType, "context-type", none⟩,
    ⟨.valued .serviceTrait, "service-trait", none⟩,
    ⟨.valued .enclosingType, "enclosing-type", none⟩,
    ⟨.valued .functionName, "function-name", none⟩,
    ⟨.valued .markerPrefix, "marker-prefix", none⟩]

/-- The options of the command that writes the generated function. -/
def generateFlags : List FlagName :=
  globalFlags ++ settingFlags ++
    [⟨.valued .source, "src", none⟩, ⟨.valued .output, "output", some 'o'⟩,
      ⟨.switch .check, "check", none⟩, ⟨.switch .watch, "watch", some 'w'⟩]

/-- The options of the command that prints the table. -/
def listFlags : List FlagName :=
  globalFlags ++ settingFlags ++ [⟨.valued .source, "src", none⟩, ⟨.switch .all, "all", none⟩]

/-! ## Reading options -/

/-- The options read so far, and one that waits for its value. -/
structure Given where
  switches : List Switch := []
  values : List (Valued × String) := []
  pending : Option Valued := none
deriving DecidableEq, Repr

namespace Given

/-- The value of an option. -/
def value? (given : Given) (option : Valued) : Option String := given.values.lookup option

/-- Whether a switch is set. -/
def has (given : Given) (switch : Switch) : Bool := given.switches.contains switch

/-- Set a switch, once. -/
def setSwitch (given : Given) (switch : Switch) : Option Given :=
  if given.has switch then none else some { given with switches := switch :: given.switches }

/-- Give a value, once. -/
def setValue (given : Given) (option : Valued) (value : String) : Option Given :=
  if (given.value? option).isSome then none
  else some { given with values := (option, value) :: given.values, pending := none }

/-- Wait for a value. -/
def await (given : Given) (option : Valued) : Given := { given with pending := some option }

end Given

/-- The form of an argument. -/
inductive ArgumentForm where
  | long (name : String) (value : Option String)
  | letters (letters : List Char)
  /-- Two hyphens alone, after which there are no options. -/
  | separator
  | plain (text : String)

/-- The form of an argument. -/
def formOf (argument : String) : ArgumentForm :=
  match argument.toList with
  | ['-', '-'] => .separator
  | '-' :: '-' :: cs =>
    let name := cs.takeWhile (· ≠ '=')
    let value := cs.drop name.length
    .long (String.ofList name) (if value = [] then none else some (String.ofList (value.drop 1)))
  | '-' :: c :: cs => .letters (c :: cs)
  | _ => .plain argument

/-- Read an option by its long name. -/
def readLong (flags : List FlagName) (given : Given) (name : String) (value : Option String) :
    Option Given := do
  let flag ← flags.find? (·.long = name)
  match flag.flag, value with
  | .switch switch, none => given.setSwitch switch
  | .switch _, some _ => none
  | .valued option, some value => given.setValue option value
  | .valued option, none => given.await option

/-- Read options by their letters. What follows the letter of a valued option is its value. -/
def readLetters (flags : List FlagName) (given : Given) : List Char → Option Given
  | [] => some given
  | c :: cs => do
    let flag ← flags.find? (·.letter = some c)
    match flag.flag with
    | .switch switch => readLetters flags (← given.setSwitch switch) cs
    | .valued option =>
      match cs with
      | [] => given.await option
      | '=' :: value => given.setValue option (String.ofList value)
      | value => given.setValue option (String.ofList value)

/-- Read the options of a command. -/
def readFlags (flags : List FlagName) (given : Given) : List String → Option Given
  | [] => if given.pending.isSome then none else some given
  | argument :: rest => do
    match formOf argument, given.pending with
    | .plain value, some option => readFlags flags (← given.setValue option value) rest
    | .long name value, none => readFlags flags (← readLong flags given name value) rest
    | .letters letters, none => readFlags flags (← readLetters flags given letters) rest
    | .separator, none => if rest.isEmpty then some given else none
    | _, _ => none

/-- Read the options before a command; the command and its arguments are returned. -/
def readCommand (given : Given) : List String → Option (String × List String)
  | [] => none
  | argument :: rest => do
    match formOf argument with
    | .plain name => some (name, rest)
    | .long name value => readCommand (← readLong globalFlags given name value) rest
    | .letters letters => readCommand (← readLetters globalFlags given letters) rest
    | .separator => none

/-! ## Commands -/

/-- A command with its options. -/
inductive Command where
  /-- Write the generated function, or check that it is up to date. -/
  | generate (source output : FilePath) (check watch : Bool) (overrides : Settings.Overrides)
  /-- Print the dispatch table, and what is left out of it. -/
  | list (source : FilePath) (all : Bool) (overrides : Settings.Overrides)

namespace Given

/-- The settings that the options override. -/
def overrides (given : Given) : Settings.Overrides :=
  { rootNamespace := given.value? .rootNamespace
    contextType := given.value? .contextType
    serviceTrait := given.value? .serviceTrait
    enclosingType := given.value? .enclosingType
    functionName := given.value? .functionName
    markerPrefix := given.value? .markerPrefix }

/-- The source directory. -/
def source (given : Given) : FilePath := ⟨(given.value? .source).getD "src"⟩

end Given

namespace Command

/-- The directory that a command scans. -/
def source : Command → FilePath
  | .generate source _ _ _ _ => source
  | .list source _ _ => source

/-- The file that a command writes or checks. -/
def output? : Command → Option FilePath
  | .generate _ output _ _ _ => some output
  | .list _ _ _ => none

/-- Whether a command is to be repeated whenever a source file changes. -/
def repeats : Command → Bool
  | .generate _ _ _ watch _ => watch
  | .list _ _ _ => false

/-- The command that arguments ask for. -/
def ofArguments? (arguments : List String) : Option Command := do
  let (name, rest) ← readCommand {} arguments
  match name with
  | "generate" =>
    let given ← readFlags generateFlags {} rest
    guard !(given.has .check && given.has .watch)
    let output := match given.value? .output with
      | some path => ⟨path⟩
      | none => given.source.join "ipc_dispatch.rs"
    return .generate given.source output (given.has .check) (given.has .watch) given.overrides
  | "list" =>
    let given ← readFlags listFlags {} rest
    return .list given.source (given.has .all) given.overrides
  | _ => none

end Command

end ServiceDispatch.CommandLine
