import ServiceDispatch.Grammar.Exprs

/-!
# Reading statements

The items among the statements of a block are recorded: they belong to what encloses the
block.
-/

namespace ServiceDispatch.Grammar

/-- The tokens that would be left after a reader, if it succeeds; nothing is read. -/
def following {α : Type} (p : Reader α) : Reader (Option (List Token)) := fun c =>
  some ((p c).map fun result => result.2.rest, c)

/-- What an invocation at the beginning of a statement is. -/
inductive StatementInvocation where
  /-- A name stands between the exclamation mark and the group. -/
  | item
  | braced
  | none
deriving DecidableEq

/-- What invocation begins ahead. -/
def statementInvocation : Reader StatementInvocation := do
  match ← following plainPath with
  | some (.punct '!' _ :: rest) =>
    let next := rest.drop 1
    if atName rest || atWord "try" rest then return .item
    else if atGroup .brace rest && !atDot next && !atOperator "?" next then return .braced
    else return .none
  | _ => return .none

/-- Whether an item begins ahead. -/
def atItem (ts : List Token) : Bool :=
  let second := ts.drop 1
  let third := skipToken second
  let function := fun (ts : List Token) => ["unsafe", "extern", "fn"].any (atWord · ts)
  ["pub", "extern", "use", "fn", "mod", "type", "struct", "enum", "trait", "impl", "macro"].any
    (atWord · ts) ||
  (atWord "crate" ts && !atOperator "::" second) ||
  (atWord "static" ts && (atWord "mut" second || atName second)) ||
  (atWord "const" ts &&
    !(atGroup .brace second || atWord "static" second ||
      (atWord "async" second && !function third) || atWord "move" second ||
      atOperator "|" second)) ||
  (atWord "unsafe" ts && !atGroup .brace second) ||
  (atWord "async" ts && function second) ||
  (atWord "union" ts && atName second) ||
  (atWord "auto" ts && atWord "trait" second) ||
  (atWord "default" ts && (atWord "unsafe" second || atWord "impl" second))

/-- Whether tokens end in a group in braces. -/
def endsInBrace (tokens : List Token) : Bool :=
  match tokens.getLast? with
  | some (.group .brace _) => true
  | _ => false

/-- The value of a local binding, perhaps with a block for values that do not match. -/
def initializer (rules : Rules) : Reader Unit := do
  if ← operator? "=" then
    let (_, value) ← captured rules.expr
    write value
    if !endsInBrace value && (← peek (atWord "else")) then
      word "else"
      rules.block

/-- A local binding. -/
def localBinding (rules : Rules) : Reader Unit := do
  word "let"
  discard rules.pattern
  if ← operator? ":" then discard rules.type
  initializer rules
  operator ";"

/-- A statement that is an expression. -/
def exprStatement (rules : Rules) : Reader Unit := do
  let form : ExprForm ← rules .statementExpr
  if !(← operator? ";") then
    let complete := match form with
      | .block => true
      | .invocation d => d == .brace
      | _ => false
    require (complete || (← atEnd))

/-- A statement. -/
def statement (rules : Rules) : Reader Unit := do
  let start ← get
  discard (outerAttributes rules)
  let invocation ← statementInvocation
  let ts ← ahead
  if invocation == .braced then
    discard plainPath
    discard invocationBody
    discard (operator? ";")
  else if atWord "let" ts then localBinding rules
  else if atItem ts || invocation == .item then
    set start
    record (← rules .item)
  else exprStatement rules

/-- The next statement, or nothing at the end of the group. -/
def nextStatement (rules : Rules) : Reader (Option Unit) := do
  discard (repeatWhile (atOperator ";") (operator ";"))
  if ← atEnd then return none
  statement rules
  return some ()

/-- Statements to the end of the group. -/
def readStatements (rules : Rules) : Reader Unit := do
  discard (repeatStep (nextStatement rules))

end ServiceDispatch.Grammar
