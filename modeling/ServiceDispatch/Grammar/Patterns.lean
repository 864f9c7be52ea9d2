import ServiceDispatch.Grammar.Types

/-!
# Reading patterns
-/

namespace ServiceDispatch.Grammar

/-- Whether a vertical bar stands ahead that separates alternatives. -/
def atBar (ts : List Token) : Bool :=
  atOperator "|" ts && !atOperator "||" ts && !atOperator "|=" ts

/-- A pattern with alternatives; a vertical bar may stand before the first one. -/
def alternatives (rules : Rules) : Reader PatternForm := do
  let leading ← operator? "|"
  let first ← rules.pattern
  let more ← repeatWhile atBar do
    operator "|"
    rules.pattern
  return if leading || !more.isEmpty then .other else first

/-- A block of statements after `const`, kept as written. -/
def constPattern (rules : Rules) : Reader Unit :=
  verbatim do
    word "const"
    discard (attributedBlock rules)

/-- Whether no bound of a range can stand here. -/
def atBoundEnd (ts : List Token) : Bool :=
  ts.isEmpty || atOperator "|" ts || atOperator "=" ts ||
    (atOperator ":" ts && !atOperator "::" ts) || atOperator "," ts || atOperator ";" ts ||
    atWord "if" ts

/-- Whether a path stands ahead. -/
def atPathStart (ts : List Token) : Bool :=
  atName ts || atOperator "::" ts || atOperator "<" ts ||
    ["self", "Self", "super", "crate"].any (atWord · ts)

/-- The bound of a range, if there is one. -/
def rangeBound (rules : Rules) : Reader Bool := do
  let ts ← ahead
  if atBoundEnd ts then return false
  else if atLiteral ts then
    discard literal
    return true
  else if atPathStart ts then
    discard (pathForm rules true)
    return true
  else
    require (atWord "const" ts)
    constPattern rules
    return true

/-- The dots of a range; whether its end belongs to it is returned. The dots `...` are an old
way to write `..=`. -/
def rangeDots (obsolete : Bool) : Reader Bool := do
  let ts ← ahead
  if atOperator "..=" ts then
    operator "..="
    return true
  else if atOperator "..." ts then
    require obsolete
    silently (operator "...")
    write (Token.operator "..=")
    return true
  else
    operator ".."
    return false

/-- The dots and the end of a range whose start has been read. -/
def rangeRest (rules : Rules) : Reader PatternForm := do
  let closed ← rangeDots true
  let ends ← rangeBound rules
  require (ends || !closed)
  return if ends then .other else .openRange

/-- A range without a start, or the rest `..`. -/
def rangeWithoutStart (rules : Rules) : Reader PatternForm := do
  let closed ← rangeDots false
  let ends ← rangeBound rules
  require (ends || !closed)
  return if ends then .openRange else .rest

/-- A field name or number; whether it is a name is returned. A number is written in decimal
form. -/
def member : Reader Bool := do
  match ← ahead with
  | .literal text :: rest =>
    match Literal.natValue? text with
    | some n =>
      require (n < UInt32.size)
      moveTo rest
      write [.literal (toString n)]
      return false
    | none => failure
  | _ =>
    discard name
    return true

/-- A field in a struct pattern. -/
def fieldPattern (rules : Rules) : Reader Unit := do
  if ← peek (atWord "box") then
    verbatim do
      word "box"
      discard (word? "ref")
      discard (word? "mut")
      discard name
  else
    let byReference ← word? "ref"
    let mutable ← word? "mut"
    if byReference || mutable then discard name
    else
      let named ← member
      if !named || (← peek (atOperator ":")) then
        operator ":"
        discard (alternatives rules)

/-- The fields of a struct pattern to the end of the group. -/
def fieldPatterns (rules : Rules) : Nat → Reader Unit
  | 0 => failure
  | n + 1 => do
    if ← atEnd then return
    discard (outerAttributes rules)
    if ← operator? ".." then return
    fieldPattern rules
    if ← atEnd then return
    operator ","
    fieldPatterns rules n

/-- A pattern that begins with a path. -/
def pathPattern (rules : Rules) : Reader PatternForm := do
  let path ← pathForm rules true
  let ts ← ahead
  if atBang ts && isPlain path then
    discard invocationBody
    return .other
  else if atGroup .brace ts then
    group .brace do fieldPatterns rules ((← ahead).length + 2)
    return .other
  else if atGroup .paren ts then
    discard <| group .paren (commaList (alternatives rules))
    return .other
  else if atOperator ".." ts then rangeRest rules
  else return .other

/-- A name that is bound, with its modifiers and the pattern it has to match. -/
def bindingPattern (rules : Rules) : Reader Unit := do
  discard (word? "ref")
  discard (word? "mut")
  if !(← word? "self") then discard name
  if ← operator? "@" then discard rules.pattern

/-- Whether a pattern that begins with a path stands ahead. -/
def atPathPattern (ts : List Token) : Bool :=
  let next := ts.drop 1
  (atName ts && (atOperator "::" next || atOperator "!" next || atGroup .brace next ||
    atGroup .paren next || atOperator ".." next)) ||
  (atWord "self" ts && atOperator "::" next) || atOperator "::" ts || atOperator "<" ts ||
  atWord "Self" ts || atWord "super" ts || atWord "crate" ts

/-- A pattern without alternatives. -/
def readPattern (rules : Rules) : Reader PatternForm := do
  let ts ← ahead
  if atPathPattern ts then pathPattern rules
  else if atWord "_" ts then
    word "_"
    return .other
  else if atWord "box" ts then
    verbatim do
      word "box"
      discard rules.pattern
    return .other
  else if atOperator "-" ts || atLiteral ts || atWord "const" ts then
    require (← rangeBound rules)
    if ← peek (atOperator "..") then rangeRest rules else return .other
  else if atWord "ref" ts || atWord "mut" ts || atWord "self" ts || atName ts then
    bindingPattern rules
    return .other
  else if atOperator "&" ts then
    operator "&"
    discard (word? "mut")
    discard rules.pattern
    return .other
  else if atGroup .paren ts then
    discard <| group .paren (commaList (alternatives rules))
    return .other
  else if atGroup .bracket ts then
    discard <| group .bracket <| commaList do
      require ((← alternatives rules) != .openRange)
    return .other
  else if atOperator ".." ts then rangeWithoutStart rules
  else failure

end ServiceDispatch.Grammar
