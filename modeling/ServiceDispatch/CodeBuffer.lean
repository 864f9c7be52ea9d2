/-!
# Indented text

A buffer collects lines of code. Every open scope indents what follows by four spaces; a
scope is closed by a line with its closing brace.
-/

namespace ServiceDispatch

/-- Lines written so far and the number of open scopes. -/
structure CodeBuffer where
  output : String := ""
  depth : Nat := 0
deriving DecidableEq, Repr, Inhabited

namespace CodeBuffer

/-- The spaces in front of a line inside `depth` scopes. -/
def indent (depth : Nat) : String := String.ofList (List.replicate (4 * depth) ' ')

/-- One line with its line break; an empty line carries no spaces. -/
def renderLine (depth : Nat) (line : String) : String :=
  if line = "" then "\n" else indent depth ++ line ++ "\n"

/-- Append one line at the current indentation. -/
def line (b : CodeBuffer) (text : String) : CodeBuffer :=
  { b with output := b.output ++ renderLine b.depth text }

/-- Append a header with an opening brace and indent what follows. -/
def enter (b : CodeBuffer) (header : String) : CodeBuffer :=
  let opened := b.line (header ++ " \x7b")
  { opened with depth := opened.depth + 1 }

/-- Close the innermost scope; without an open scope only the brace is written. -/
def leave (b : CodeBuffer) : CodeBuffer :=
  CodeBuffer.line { b with depth := b.depth - 1 } "\x7d"

/-- One step of writing. -/
inductive Step where
  | line (text : String)
  | enter (header : String)
  | leave
deriving DecidableEq, Repr

/-- The buffer after one step. -/
def apply (b : CodeBuffer) : Step → CodeBuffer
  | .line text => b.line text
  | .enter header => b.enter header
  | .leave => b.leave

/-- The buffer after a sequence of steps. -/
def applyAll (b : CodeBuffer) (steps : List Step) : CodeBuffer := steps.foldl apply b

end CodeBuffer

end ServiceDispatch
