import ServiceDispatch.Environment
import ServiceDispatch.Files.FileTree
import ServiceDispatch.Text.Alphabetic

/-!
# Environment files

A file of assignments `NAME=value` binds variables that have no value yet. Values may be
quoted, and may refer to variables bound before. A line that is not well formed ends the
reading; what was bound before it stays bound.
-/

namespace ServiceDispatch.Dotenv

open Text

/-! ## Lines -/

/-- Where a line stands when it breaks. -/
inductive LineState where
  | plain
  | escaped
  | weak
  | weakEscaped
  | strong
  | strongEscaped
  /-- After a blank outside quotes, where a comment may begin. -/
  | blank
deriving DecidableEq, Repr

/-- What is left of a line: the line up to a comment, or all of it with the state at its end. -/
inductive LineEnd where
  | comment (before : List Char)
  | state (state : LineState)

/-- The state after a character outside a comment. -/
def LineState.next (state : LineState) (c : Char) : LineState :=
  let outside : LineState :=
    if c = '\\' then .escaped else if c = '"' then .weak else if c = '\'' then .strong else .plain
  match state with
  | .blank => outside
  | .escaped => .plain
  | .plain => if isBlank c ∧ c ≠ '\n' ∧ c ≠ '\r' then .blank else outside
  | .weak => if c = '\\' then .weakEscaped else if c = '"' then .plain else .weak
  | .weakEscaped => .weak
  | .strong => if c = '\\' then .strongEscaped else if c = '\'' then .plain else .strong
  | .strongEscaped => .strong

/-- Where a line ends that begins in a state; `before` is what was read of it, latest first. -/
def lineEnd (state : LineState) (before : List Char) : List Char → LineEnd
  | [] => .state state
  | c :: cs =>
    if state = .blank ∧ c = '#' then .comment before.reverse
    else lineEnd (state.next c) (c :: before) cs

/-- The lines of a text, each with its line feed. -/
def linesOf : List Char → List (List Char)
  | [] => []
  | c :: cs =>
    if c = '\n' then [c] :: linesOf cs
    else
      match linesOf cs with
      | [] => [[c]]
      | line :: lines =>  (c :: line) :: lines

/-- A line without its line feed and a carriage return before it. -/
def withoutBreak (line : List Char) : List Char :=
  match line.reverse with
  | '\n' :: '\r' :: rest => rest.reverse
  | '\n' :: rest => rest.reverse
  | _ => line

/-! ## Values -/

/-- What is being read inside a value. -/
inductive ValueState where
  | plain
  | escaped
  /-- A reference `$NAME`. -/
  | reference (name : List Char)
  /-- A reference in braces. -/
  | braced (name : List Char)
  | strong
  /-- After a blank outside quotes: only blanks or a comment may follow. -/
  | finished

/-- The value that a reference stands for, latest character first. -/
def referred (env : Environment) (name : List Char) : List Char :=
  ((env.get? (String.ofList name.reverse)).getD "").toList.reverse

/-- What an escaped character stands for. -/
def unescaped? (c : Char) : Option Char :=
  if c = 'n' then some '\n'
  else if c = '\\' ∨ c = '\'' ∨ c = '"' ∨ c = '$' ∨ c = ' ' then some c else none

/-- Read a value; `weak` tells whether double quotes are open, and `output` is what was read,
latest first. A reference takes only letters and digits unless it is in braces. -/
def readValue (env : Environment) (weak : Bool) (state : ValueState) (output : List Char) :
    List Char → Option (List Char)
  | [] =>
    match state with
    | .braced _ => none
    | .strong => none
    | .reference name => if weak then none else some (referred env name ++ output).reverse
    | _ => if weak then none else some output.reverse
  | c :: cs =>
    match state with
    | .finished =>
      if c = ' ' ∨ c = '\t' then readValue env weak .finished output cs
      else if c = '#' then some output.reverse
      else none
    | .escaped =>
      match unescaped? c with
      | some d => readValue env weak .plain (d :: output) cs
      | none => none
    | .strong =>
      if c = '\'' then readValue env weak .plain output cs
      else readValue env weak .strong (c :: output) cs
    | .reference name =>
      if isAlphanumeric c then readValue env weak (.reference (c :: name)) output cs
      else if c = '\x7b' ∧ name = [] then readValue env weak (.braced []) output cs
      else if c = '$' then readValue env weak (.reference []) (referred env name ++ output) cs
      else readValue env weak .plain (c :: referred env name ++ output) cs
    | .braced name =>
      if c = '\x7d' then readValue env weak .plain (referred env name ++ output) cs
      else readValue env weak (.braced (c :: name)) output cs
    | .plain =>
      if c = '$' then readValue env weak (.reference []) output cs
      else if c = '\\' then readValue env weak .escaped output cs
      else if c = '"' then readValue env (!weak) .plain output cs
      else if weak then readValue env weak .plain (c :: output) cs
      else if c = '\'' then readValue env weak .strong output cs
      else if c = ' ' ∨ c = '\t' then readValue env weak .finished output cs
      else readValue env weak .plain (c :: output) cs

/-! ## Assignments -/

/-- Whether a character may begin a variable name. -/
def isNameStart (c : Char) : Bool := c.isAlpha || c == '_'

/-- Whether a character may stand in a variable name. -/
def isNameChar (c : Char) : Bool := c.isAlphanum || c == '_' || c == '.'

/-- A variable name, and what follows it and the blanks after it. -/
def readName? (cs : List Char) : Option (String × List Char) :=
  if cs.head?.any isNameStart then
    some (String.ofList (cs.takeWhile isNameChar), trimFront (cs.dropWhile isNameChar))
  else none

/-- What follows an equals sign and the blanks after it. -/
def afterEquals? : List Char → Option (List Char)
  | '=' :: cs => some (trimFront cs)
  | _ => none

/-- The name of an assignment and what follows its equals sign; the word `export` may stand
before the name, and may be a name itself. -/
def readTarget? (cs : List Char) : Option (String × List Char) := do
  let (name, rest) ← readName? cs
  match afterEquals? rest with
  | some value => return (name, value)
  | none =>
    guard (name = "export")
    let (name, rest) ← readName? rest
    return (name, ← afterEquals? rest)

/-- What a line assigns: nothing, or a value to a variable. A line that is not well formed is a
failure. -/
def readAssignment? (env : Environment) (line : List Char) : Option (Option (String × String)) :=
  let content := trim line
  if content.isEmpty || content.head? = some '#' then some none
  else do
    let (name, value) ← readTarget? content
    if value.isEmpty || value.head? = some '#' then return some (name, "")
    else return some (name, String.ofList (← readValue env false .plain [] value))

/-! ## Files -/

/-- Load lines into an environment; `pending` is what was read of a line that goes on after a
line break. A line that is no text ends the reading. Whether all was well formed is returned. -/
def loadLines (env : Environment) (pending : List Char) (state : LineState) :
    List (Option (List Char)) → Environment × Bool
  | [] => (env, state = .plain)
  | none :: _ => (env, false)
  | some line :: rest =>
    let whole := pending ++ line
    let assign := fun (content : List Char) =>
      match readAssignment? env content with
      | none => (env, false)
      | some none => loadLines env [] .plain rest
      | some (some (name, value)) => loadLines (env.bindIfAbsent name value) [] .plain rest
    if (trimFront whole).head? = some '#' then loadLines env [] .plain rest
    else
      match lineEnd state [] line with
      | .comment before => assign (pending ++ before)
      | .state .plain => assign (withoutBreak whole)
      | .state other => loadLines env whole other rest

/-- The lines of bytes, each with its line feed. -/
def byteLines : List UInt8 → List (List UInt8)
  | [] => []
  | b :: bs =>
    if b = 10 then [b] :: byteLines bs
    else
      match byteLines bs with
      | [] => [[b]]
      | line :: lines => (b :: line) :: lines

/-- The lines of a file, without a mark at its beginning. -/
def contentLines : Files.FileContent → List (Option (List Char))
  | .text text =>
    let cs := text.toList
    (linesOf (if cs.head? = some '\ufeff' then cs.drop 1 else cs)).map some
  | .binary bytes =>
    let bytes := if [0xEF, 0xBB, 0xBF].isPrefixOf bytes then bytes.drop 3 else bytes
    (byteLines bytes).map fun line => (String.fromUTF8? ⟨line.toArray⟩).map String.toList

/-- Load a file into an environment; whether it was well formed is returned. -/
def load (env : Environment) (content : Files.FileContent) : Environment × Bool :=
  loadLines env [] .plain (contentLines content)

/-- The names of the environment files of a project, the more specific one first. -/
def fileNames : List String := [".env.local", ".env"]

/-- Load the environment files in a directory. The files that were well formed are returned. -/
def loadProject (env : Environment) (tree : Files.FileTree) (directory : Files.FilePath) :
    Environment × List Files.FilePath :=
  fileNames.foldl (fun (env, loaded) name =>
    let path := directory.join name
    match tree.content? path with
    | some content =>
      let (after, complete) := load env content
      (after, if complete then loaded ++ [path] else loaded)
    | none => (env, loaded)) (env, [])

end ServiceDispatch.Dotenv
