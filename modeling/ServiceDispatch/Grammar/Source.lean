import ServiceDispatch.Grammar.Items
import ServiceDispatch.Token.Lexer

/-!
# Reading whole sources

The readers of all forms, tied together, and the entry points: files, single items, types,
argument lists and attribute bodies.
-/

namespace ServiceDispatch.Grammar

/-- The reader of each form, given the readers of the forms inside it. -/
def readForm (rules : Rules) : Rules
  | .expr braces => readExpr rules braces
  | .operand braces => readOperand rules braces
  | .climb braces left base => readClimb rules braces left base
  | .statementExpr => readStatementExpr rules
  | .type plus => readType rules plus
  | .pattern => readPattern rules
  | .statements => readStatements rules
  | .item => readItem rules

/-- The readers of all forms that are nested at most `n` levels deep. -/
def rulesUpTo : Nat → Rules
  | 0 => fun _ => failure
  | n + 1 => readForm (rulesUpTo n)

/-- A bound of how deeply forms nest in a token sequence: no more than eight forms begin at one
token. -/
def nesting (ts : List Token) : Nat := 8 * Token.sizeAll ts + 16

/-- Read from the front of a token sequence; what is left is returned too. -/
def readFront? {α : Type} (p : Rules → Reader α) (ts : List Token) : Option (α × List Token) :=
  (p (rulesUpTo (nesting ts)) { rest := ts }).map fun (a, c) => (a, c.rest)

/-- Read a whole token sequence. -/
def readAll? {α : Type} (p : Rules → Reader α) (ts : List Token) : Option α :=
  match readFront? p ts with
  | some (a, []) => some a
  | _ => none

/-- The items of a source file; items inside its attributes come first. -/
def file (rules : Rules) : Reader (List Item) := do
  let (_, found) ← collecting (innerAttributes rules)
  let items : List Item ← untilEnd (rules .item)
  return found ++ items

end ServiceDispatch.Grammar

namespace ServiceDispatch

open Grammar

/-- The items of a source text, if it is well formed. -/
def Item.ofFile? (text : String) : Option (List Item) := do
  readAll? file (← Lexer.fileTokens? text.toList)

/-- An item with its printed tokens. -/
def Item.ofTokens? (ts : List Token) : Option (Item × List Token) :=
  readAll? (fun rules => captured (rules .item)) ts

/-- The type that a text denotes. -/
def Ty.ofText? (text : String) : Option Ty := do
  readAll? (fun rules => rules.type) (← Lexer.tokens? text.toList)

/-- The struct that a text declares. -/
def TypeDecl.structOfText? (text : String) : Option TypeDecl := do
  match ← Item.ofTokens? (← Lexer.tokens? text.toList) with
  | (.type decl, _) => if decl.kind = .struct then some decl else none
  | _ => none

/-- An argument: an expression with its printed tokens. -/
def Grammar.argument (rules : Rules) : Reader (ExprForm × List Token) := captured rules.expr

/-- The arguments of a comma separated list. -/
def Grammar.argumentList? (ts : List Token) : Option (List (ExprForm × List Token)) :=
  (readAll? (fun rules => commaList (argument rules)) ts).map (·.1)

/-- The attribute whose brackets contain the given tokens. -/
def Attribute.ofTokens? (ts : List Token) : Option Attribute := readAll? attributeBody ts

/-- The attributes in a comma separated list. -/
def Attribute.listOfTokens? (ts : List Token) : Option (List Attribute) :=
  (readAll? (fun rules => commaList (attributeBody rules)) ts).map (·.1)

end ServiceDispatch
