import ServiceDispatch.Grammar.Patterns

/-!
# Reading expressions

An operand is an atom with prefix operators before it and calls, fields and the like after it.
Binary operators between operands are read by how strongly they bind.
-/

namespace ServiceDispatch.Grammar

/-! ## Looking ahead -/

/-- The binary operators with their strengths, longer ones before those they begin with. -/
def binaryOperators : List (String × Strength) :=
  [("+=", .assign), ("-=", .assign), ("*=", .assign), ("/=", .assign), ("%=", .assign),
    ("^=", .assign), ("&=", .assign), ("|=", .assign), ("<<=", .assign), (">>=", .assign),
    ("&&", .and), ("||", .or), ("<<", .shift), (">>", .shift), ("==", .compare),
    ("<=", .compare), ("!=", .compare), (">=", .compare), ("+", .sum), ("-", .sum),
    ("*", .product), ("/", .product), ("%", .product), ("^", .bitXor), ("&", .bitAnd),
    ("|", .bitOr), ("<", .compare), (">", .compare)]

/-- The binary operator that stands ahead. -/
def binaryOperator? (ts : List Token) : Option (String × Strength) :=
  binaryOperators.find? fun entry => atOperator entry.1 ts

/-- Whether an assignment stands ahead. -/
def atAssign (ts : List Token) : Bool := atOperator "=" ts && !atOperator "=>" ts

/-- The strength of what follows an operand. -/
def strengthAhead (ts : List Token) : Strength :=
  match binaryOperator? ts with
  | some (_, strength) => strength
  | none =>
    if atAssign ts then .assign
    else if atOperator ".." ts then .range
    else if atWord "as" ts then .cast
    else .lowest

/-- Whether a single dot stands ahead. -/
def atDot (ts : List Token) : Bool := atOperator "." ts && !atOperator ".." ts

/-- Whether an expression may begin with what stands ahead. -/
def atExprStart (ts : List Token) : Bool :=
  atAnyWord ts || atGroup .paren ts || atGroup .bracket ts || atGroup .brace ts ||
    atLiteral ts || atBang ts ||
    (atOperator "-" ts && !atOperator "-=" ts && !atOperator "->" ts) ||
    (atOperator "*" ts && !atOperator "*=" ts) || (atOperator "|" ts && !atOperator "|=" ts) ||
    (atOperator "&" ts && !atOperator "&=" ts) || atOperator ".." ts ||
    (atOperator "<" ts && !atOperator "<=" ts && !atOperator "<<=" ts) ||
    atOperator "::" ts || atLifetime ts || atOperator "#" ts

/-- Whether a half-open range ends where it stands. -/
def atRangeEnd (braces : Bool) (ts : List Token) : Bool :=
  ts.isEmpty || atOperator "," ts || atOperator ";" ts || atDot ts || atOperator "?" ts ||
    atOperator "=>" ts || (!braces && atGroup .brace ts) ||
    ["=", "+", "/", "%", "^", ">", "<=", "!=", "-=", "*=", "&=", "|=", "<<="].any
      (atOperator · ts) ||
    atWord "as" ts

/-- Whether an angle bracket ahead opens generic parameters and not a path through a type. -/
def atGenericParams (ts : List Token) : Bool :=
  let second := ts.drop 1
  let third := skipToken second
  atOperator "<" ts &&
    (atOperator ">" second || atOperator "#" second || atWord "const" second ||
      ((atLifetime second || atName second) &&
        (atOperator ">" third || atOperator "," third ||
          (atOperator ":" third && !atOperator "::" third) || atOperator "=" third)))

/-- Whether a quantifier `for<…>` stands ahead. -/
def atQuantifier (ts : List Token) : Bool := atWord "for" ts && atGenericParams (ts.drop 1)

/-- Whether a closure stands ahead. -/
def atClosure (ts : List Token) : Bool :=
  let next := ts.drop 1
  atOperator "|" ts || atWord "move" ts || atQuantifier ts ||
    (atWord "const" ts && !atGroup .brace next) || atWord "static" ts ||
    (atWord "async" ts && (atOperator "|" next || atWord "move" next))

/-- Whether an asynchronous block stands ahead. -/
def atAsyncBlock (ts : List Token) : Bool :=
  let next := ts.drop 1
  atWord "async" ts &&
    (atGroup .brace next || (atWord "move" next && atGroup .brace (next.drop 1)))

/-! ## Operators -/

/-- An operand takes the operators after it that bind more strongly than `strength`, and a further
assignment after an assignment. It stops where no operator is taken. -/
def strongerUpTo (rules : Rules) (braces : Bool) (strength : Strength) :
    Nat → ExprForm → Reader Unit
  | 0, _ => failure
  | n + 1, form => do
    let ts ← ahead
    let next := strengthAhead ts
    if next.rank > strength.rank || (next == .assign && strength == .assign) then
      let form ← rules (.climb braces form next)
      if (← ahead).length < ts.length then strongerUpTo rules braces strength n form

/-- The right side of an operator of the given strength. -/
def rightSide (rules : Rules) (braces : Bool) (strength : Strength) : Reader Unit := do
  let first ← rules (.operand braces)
  strongerUpTo rules braces strength ((← ahead).length + 2) first

/-- The dots of a range and its end. -/
def rangeTail (rules : Rules) (braces : Bool) : Reader Unit := do
  let closed ← rangeDots false
  if !closed && (← peek (atRangeEnd braces)) then return
  rightSide rules braces .range

/-- One operator after an operand, if it binds at least as strongly as `base`. -/
def climbOnce (rules : Rules) (braces : Bool) (left : ExprForm) (base : Strength) :
    Reader (Option ExprForm) := do
  if left == .range then return none
  let ts ← ahead
  match binaryOperator? ts with
  | some (op, strength) =>
    if strength.rank < base.rank then return none
    require !(strength == .compare && left == .comparison)
    operator op
    rightSide rules braces strength
    return some (if strength == .compare then .comparison else .other)
  | none =>
    if base.rank ≤ Strength.assign.rank && atAssign ts then
      operator "="
      rightSide rules braces .assign
      return some .other
    else if base.rank ≤ Strength.range.rank && atOperator ".." ts then
      rangeTail rules braces
      return some .range
    else if base.rank ≤ Strength.cast.rank && atWord "as" ts then
      word "as"
      discard (rules (.type false))
      let ts ← ahead
      require !(atDot ts || atOperator "?" ts || atGroup .bracket ts || atGroup .paren ts)
      return some .other
    else return none

/-- All operators after an operand that bind at least as strongly as `base`. -/
def climbUpTo (rules : Rules) (braces : Bool) (base : Strength) :
    Nat → ExprForm → Reader ExprForm
  | 0, _ => failure
  | n + 1, left => do
    match ← climbOnce rules braces left base with
    | some form => climbUpTo rules braces base n form
    | none => return left

/-- The operators after an operand. -/
def readClimb (rules : Rules) (braces : Bool) (left : ExprForm) (base : Strength) :
    Reader ExprForm := do
  climbUpTo rules braces base ((← ahead).length + 2) left

/-! ## What follows an atom -/

/-- Call arguments in parentheses. -/
def arguments (rules : Rules) : Reader Unit :=
  discard (group .paren (commaList rules.expr))

/-- The indexes that a literal with a dot stands for, such as `0.1`; whether a dot is left after
them is returned. -/
def indexChain (text : String) : Option (List Nat × Bool) := do
  let parts := text.splitOn "."
  let trailing := parts.getLast? == some ""
  let indexes ← (if trailing then parts.dropLast else parts).mapM Literal.natValue?
  if indexes.all (· < UInt32.size) then some (indexes, trailing) else none

/-- A field or method after its dot. -/
def memberAccess (rules : Rules) : Reader Unit := do
  if ← word? "await" then return
  let named ← member
  let turbofish ← peek (atOperator "::")
  if named && turbofish then
    let args ← silently (angledArgs (genericArg rules))
    require (match args with
      | .angled turbofish _ _ => turbofish
      | _ => false)
    write args.tokens
    arguments rules
  else if named && (← peek (atGroup .paren)) then arguments rules

/-- What follows a dot. -/
def access (rules : Rules) : Reader Unit := do
  operator "."
  match ← ahead with
  | .literal text :: rest =>
    if Literal.isFloat text then
      match indexChain text with
      | some (indexes, trailing) =>
        moveTo rest
        let dot := Token.operator "."
        write (dot.intercalate (indexes.map fun i => [.literal (toString i)]))
        if trailing then
          write dot
          memberAccess rules
      | none => failure
    else memberAccess rules
  | _ => memberAccess rules

/-- One call, field, index or question mark after an expression, if one stands ahead. -/
def trailingOne (rules : Rules) (atom : ExprForm) : Reader (Option Unit) := do
  let ts ← ahead
  if atGroup .paren ts then
    arguments rules
    return some ()
  else if atDot ts && atom != .range then
    access rules
    return some ()
  else if atGroup .bracket ts then
    discard (group .bracket rules.expr)
    return some ()
  else if atOperator "?" ts && atom != .range then
    operator "?"
    return some ()
  else return none

/-- Calls, fields, indexes and question marks after an expression. -/
def trailing (rules : Rules) (atom : ExprForm) : Reader ExprForm := do
  let steps ← repeatStep (trailingOne rules atom)
  return if steps.isEmpty then atom else .other

/-! ## Atoms -/

/-- A condition and the block after it. -/
def conditionAndBlock (rules : Rules) : Reader Unit := do
  discard rules.condition
  rules.block

/-- Alternatives of an `if`, one after the other. -/
def ifChain (rules : Rules) : Nat → Reader Unit
  | 0 => failure
  | n + 1 => do
    word "if"
    conditionAndBlock rules
    if ← word? "else" then
      if ← peek (atWord "if") then ifChain rules n else rules.block

/-- A branch of a `match`. -/
def matchArm (rules : Rules) : Reader Unit := do
  discard (outerAttributes rules)
  discard (alternatives rules)
  if ← word? "if" then discard rules.expr
  operator "=>"
  let body : ExprForm ← rules .statementExpr
  if !(← operator? ",") then
    require (body == .block || (← atEnd))

/-- A loop or block after its label. -/
def loopForm (rules : Rules) : Reader ExprForm := do
  let ts ← ahead
  if atWord "while" ts then
    word "while"
    discard rules.condition
    discard (attributedBlock rules)
  else if atWord "for" ts then
    word "for"
    discard (alternatives rules)
    word "in"
    discard rules.condition
    discard (attributedBlock rules)
  else if atWord "loop" ts then
    word "loop"
    discard (attributedBlock rules)
  else discard (attributedBlock rules)
  return .block

/-- A loop or block with a label. -/
def labeled (rules : Rules) : Reader ExprForm := do
  discard lifetime
  operator ":"
  loopForm rules

/-- A form that begins with a word and ends in a block. -/
def blockForm (rules : Rules) : Reader ExprForm := do
  let ts ← ahead
  if atWord "if" ts then
    ifChain rules (ts.length + 2)
    return .block
  else if atWord "match" ts then
    word "match"
    discard rules.condition
    group .brace do
      discard (innerAttributes rules)
      discard (untilEnd (matchArm rules))
    return .block
  else if atWord "unsafe" ts || atWord "const" ts then
    discard anyWord
    discard (attributedBlock rules)
    return .block
  else if atWord "try" ts then
    word "try"
    rules.block
    return .block
  else loopForm rules

/-- A parameter of a closure. -/
def closureParam (rules : Rules) : Reader Unit := do
  discard (outerAttributes rules)
  discard rules.pattern
  if ← operator? ":" then discard rules.type

/-- A closure. -/
def closure (rules : Rules) (braces : Bool) : Reader Unit := do
  if ← peek (atWord "for") then boundLifetimes rules
  for w in ["const", "static", "async", "move"] do
    discard (word? w)
  operator "|"
  discard (separated (atOperator "|") "," (closureParam rules))
  operator "|"
  if ← operator? "->" then
    discard rules.type
    rules.block
  else discard (rules (.expr braces))

/-- The fields of a struct literal to the end of the group. -/
def structFields (rules : Rules) : Nat → Reader Unit
  | 0 => failure
  | n + 1 => do
    if ← atEnd then return
    if ← operator? ".." then
      if !(← atEnd) then discard rules.expr
      return
    discard (outerAttributes rules)
    let named ← member
    if !named || (← peek (atOperator ":")) then
      operator ":"
      discard rules.expr
    if ← atEnd then return
    operator ","
    structFields rules n

/-- An expression that begins with a path. -/
def pathExpr (rules : Rules) (braces : Bool) : Reader ExprForm := do
  let path ← pathForm rules true
  let ts ← ahead
  if atBang ts && isPlain path then return .invocation (← invocationBody)
  else if braces && atGroup .brace ts then
    group .brace do structFields rules ((← ahead).length + 2)
    return .other
  else return .other

/-- An array, by its elements or by one element and a length. -/
def arrayExpr (rules : Rules) : Reader Unit :=
  group .bracket do
    if ← atEnd then return
    discard rules.expr
    if ← operator? ";" then discard rules.expr
    else if ← operator? "," then discard (commaList rules.expr)

/-- An optional value after a word such as `return`. -/
def optionalValue (rules : Rules) (allowed : List Token → Bool) : Reader Unit := do
  if ← peek fun ts => atExprStart ts && allowed ts then discard rules.expr

/-- A form that ends the flow of control. -/
def jump (rules : Rules) (braces : Bool) : Reader Unit := do
  let ts ← ahead
  if atWord "break" ts then
    word "break"
    if (← lifetime?).isSome then require !(← peek (atOperator ":"))
    optionalValue rules fun ts => braces || !atGroup .brace ts
  else if atWord "continue" ts then
    word "continue"
    discard lifetime?
  else if atWord "become" ts then
    verbatim do
      word "become"
      discard rules.expr
  else
    discard anyWord
    optionalValue rules fun _ => true

/-- A binding condition `let … = …`. -/
def letCondition (rules : Rules) (braces : Bool) : Reader Unit := do
  word "let"
  discard (alternatives rules)
  operator "="
  let left ← rules (.operand braces)
  discard (rules (.climb braces left .compare))

/-- A form that only a compiler's own libraries use, kept as written. -/
def builtinForm : Reader Unit :=
  verbatim do
    word "builtin"
    operator "#"
    discard name
    let (d, _) ← anyGroup
    require (d == .paren)

/-- An atom. -/
def atom (rules : Rules) (braces : Bool) : Reader ExprForm := do
  let ts ← ahead
  let next := ts.drop 1
  if atLiteral ts then return .literal (← literal)
  else if atAsyncBlock ts then
    word "async"
    discard (word? "move")
    rules.block
    return .other
  else if atWord "try" ts && atGroup .brace next then blockForm rules
  else if atClosure ts then
    closure rules braces
    return .other
  else if atWord "builtin" ts && atOperator "#" next then
    builtinForm
    return .other
  else if atPathStart ts || (atWord "try" ts && (atOperator "!" next || atOperator "::" next)) then
    pathExpr rules braces
  else if atGroup .paren ts then
    discard (group .paren (commaList rules.expr))
    return .other
  else if ["break", "continue", "return", "become", "yield"].any (atWord · ts) then
    jump rules braces
    return .other
  else if atGroup .bracket ts then
    arrayExpr rules
    return .other
  else if atWord "let" ts then
    letCondition rules braces
    return .other
  else if atGroup .brace ts ||
      ["if", "while", "for", "loop", "match", "unsafe", "const"].any (atWord · ts) then
    blockForm rules
  else if atOperator ".." ts then
    rangeTail rules braces
    return .range
  else if atWord "_" ts then
    word "_"
    return .other
  else if atLifetime ts then labeled rules
  else failure

/-- A prefix operator, if one stands ahead. -/
def prefixOperator : Reader Bool := do
  let ts ← ahead
  if atOperator "&" ts then
    operator "&"
    let ts ← ahead
    if atWord "raw" ts && (atWord "mut" (ts.drop 1) || atWord "const" (ts.drop 1)) then
      word "raw"
      discard anyWord
    else discard (word? "mut")
    return true
  else if let some op := ["*", "!", "-"].find? (atOperator · ts) then
    operator op
    return true
  else return false

/-- An operand. -/
def readOperand (rules : Rules) (braces : Bool) : Reader ExprForm := do
  let attributes ← outerAttributes rules
  if ← prefixOperator then
    discard (rules (.operand braces))
    return .other
  else
    let first ← atom rules braces
    let form ← trailing rules first
    require (attributes.isEmpty || form != .range)
    return form

/-- An expression. -/
def readExpr (rules : Rules) (braces : Bool) : Reader ExprForm := do
  let left ← rules (.operand braces)
  rules (.climb braces left .lowest)

/-- Whether a form stands ahead that ends an expression with its block. -/
def atBlockForm (ts : List Token) : Bool :=
  let next := ts.drop 1
  ["if", "while", "loop", "match", "unsafe"].any (atWord · ts) ||
    (atWord "for" ts && !atQuantifier ts) || (atWord "try" ts && atGroup .brace next) ||
    (atWord "const" ts && atGroup .brace next) || atGroup .brace ts

/-- An expression that ends after a block, unless a dot or a question mark follows. -/
def readStatementExpr (rules : Rules) : Reader ExprForm := do
  discard (outerAttributes rules)
  let ts ← ahead
  let form ← if atBlockForm ts then blockForm rules
    else if atLifetime ts then labeled rules
    else rules (.operand true)
  if form != .block then rules (.climb true form .lowest)
  else if ← peek fun ts => atDot ts || atOperator "?" ts then
    let form ← trailing rules form
    rules (.climb true form .lowest)
  else return .block

end ServiceDispatch.Grammar
