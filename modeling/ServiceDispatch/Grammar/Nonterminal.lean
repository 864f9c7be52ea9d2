import ServiceDispatch.Grammar.Reader

/-!
# Mutually dependent forms

Types, patterns, expressions, statements and items contain each other. A form that another one
refers to is named here with the result of reading it; the readers of the single forms take the
readers of all named forms as an argument.
-/

namespace ServiceDispatch.Grammar

/-- What later decisions need to know about an expression. -/
inductive ExprForm where
  /-- A lone literal, as written. -/
  | literal (text : String)
  /-- A form that ends in a block and needs no separator after it. -/
  | block
  /-- An invocation `name!` with the given brackets. -/
  | invocation (delimiter : Delimiter)
  | range
  | comparison
  | other
deriving DecidableEq, Repr, Inhabited

/-- What later decisions need to know about a pattern. -/
inductive PatternForm where
  /-- The pattern `..`. -/
  | rest
  /-- A range that is open at one side. -/
  | openRange
  | other
deriving DecidableEq, Repr, Inhabited

/-- How strongly an operator binds, weakest first. -/
inductive Strength where
  | lowest
  | assign
  | range
  | or
  | and
  | compare
  | bitOr
  | bitXor
  | bitAnd
  | shift
  | sum
  | product
  | cast
deriving DecidableEq, Repr, Inhabited

namespace Strength

/-- The place of a strength in the order. -/
def rank : Strength → Nat
  | .lowest => 0
  | .assign => 1
  | .range => 2
  | .or => 3
  | .and => 4
  | .compare => 5
  | .bitOr => 6
  | .bitXor => 7
  | .bitAnd => 8
  | .shift => 9
  | .sum => 10
  | .product => 11
  | .cast => 12

end Strength

/-- The named forms. -/
inductive Nonterminal where
  /-- An expression; `braces` tells whether a struct literal may stand in it. -/
  | expr (braces : Bool)
  /-- An operand with its prefix operators and whatever follows it. -/
  | operand (braces : Bool)
  /-- The operators after an operand, as long as they bind at least as strongly as `base`. -/
  | climb (braces : Bool) (left : ExprForm) (base : Strength)
  /-- An expression that ends after a block. -/
  | statementExpr
  /-- A type; `plus` tells whether trait bounds may be added to it. -/
  | type (plus : Bool)
  | pattern
  /-- Statements to the end of the group. -/
  | statements
  | item

namespace Nonterminal

/-- The result of reading a named form. -/
def Result : Nonterminal → Type
  | .expr _ => ExprForm
  | .operand _ => ExprForm
  | .climb _ _ _ => ExprForm
  | .statementExpr => ExprForm
  | .type _ => Ty
  | .pattern => PatternForm
  | .statements => Unit
  | .item => Item

end Nonterminal

/-- Readers of all named forms. -/
abbrev Rules := (form : Nonterminal) → Reader form.Result

/-! ## Forms used everywhere -/

namespace Rules

/-- An expression. -/
def expr (rules : Rules) : Reader ExprForm := rules (.expr true)

/-- An expression in front of a block: a brace ends it. -/
def condition (rules : Rules) : Reader ExprForm := rules (.expr false)

/-- A type to which trait bounds may be added. -/
def type (rules : Rules) : Reader Ty := rules (.type true)

/-- A pattern without alternatives. -/
def pattern (rules : Rules) : Reader PatternForm := rules .pattern

/-- A block of statements. -/
def block (rules : Rules) : Reader Unit := group .brace (rules .statements)

end Rules

/-- A path of plain names; whether it is rooted is returned with the names. -/
def plainPath : Reader (Bool × List String) := do
  let rooted ← operator? "::"
  let segment : Reader String := do
    let ts ← ahead
    require (atName ts || atWord "super" ts || atWord "self" ts || atWord "Self" ts ||
      atWord "crate" ts)
    anyWord
  let first ← segment
  let more ← repeatWhile (atOperator "::") do
    operator "::"
    segment
  return (rooted, first :: more)

/-- The inside of an attribute's brackets. -/
def attributeBody (rules : Rules) : Reader Attribute := do
  let (rooted, path) ←
    if ← peek (atWord "unsafe") then do word "unsafe"; pure (false, ["unsafe"])
    else plainPath
  let ts ← ahead
  if atGroup .paren ts || atGroup .bracket ts || atGroup .brace ts then
    let (_, body) ← anyGroup
    return ⟨rooted, path, .list body⟩
  else if atOperator "=" ts then
    operator "="
    let ts ← ahead
    require !(atOperator "#" ts && atGroup .bracket (ts.drop 1))
    let (_, value) ← captured rules.expr
    write value
    return ⟨rooted, path, .value value⟩
  else return ⟨rooted, path, .none⟩

/-- The attributes in front of something. -/
def outerAttributes (rules : Rules) : Reader (List Attribute) :=
  repeatWhile (atOperator "#") do
    operator "#"
    group .bracket (attributeBody rules)

/-- The attributes at the beginning of a group that belong to what encloses it. -/
def innerAttributes (rules : Rules) : Reader (List Attribute) :=
  repeatWhile (fun ts => atOperator "#" ts && atOperator "!" (ts.drop 1)) do
    operator "#"
    operator "!"
    group .bracket (attributeBody rules)

/-- A block that may begin with attributes, which are returned. -/
def attributedBlock (rules : Rules) : Reader (List Attribute) :=
  group .brace do
    let attributes ← innerAttributes rules
    rules .statements
    return attributes

end ServiceDispatch.Grammar
