import ServiceDispatch.Grammar.Exprs

/-!
# Reading generic parameters

Generic parameters and `where` clauses. Both are written in a normal form: lifetimes before
all other parameters, no colon without bounds, and no empty lists.
-/

namespace ServiceDispatch.Grammar

/-- Bounds after a colon, if there is one, which is returned; a colon without bounds is not
written. -/
def colonBounds (stop : List Token → Bool) (item : Reader Unit) : Reader Bool := do
  if ← silently (operator? ":") then
    let (bounds, tokens) ← captured (joined stop "+" item)
    if !bounds.isEmpty then write (Token.operator ":" ++ tokens)
    return true
  else return false

/-- A trait or lifetime as a bound of a parameter. -/
def paramBound (rules : Rules) : Reader Unit :=
  discard (bound rules (genericArg rules) false true)

/-- Whether the bounds of a generic parameter end here. -/
def atParamBoundsEnd (ts : List Token) : Bool :=
  ts.isEmpty || atOperator "," ts || atOperator ">" ts || atOperator "=" ts

/-- A generic parameter; whether it is a lifetime is returned. -/
def genericParam (rules : Rules) : Reader Bool := do
  discard (outerAttributes rules)
  let ts ← ahead
  if atLifetime ts then
    discard lifetime
    discard <| colonBounds (fun ts => ts.isEmpty || atOperator "," ts || atOperator ">" ts)
      (discard lifetime)
    return true
  else if atWord "const" ts then
    word "const"
    discard name
    operator ":"
    discard rules.type
    if ← operator? "=" then constArgument rules
    return false
  else if atWord "_" ts then
    word "_"
    return false
  else
    discard name
    discard (colonBounds atParamBoundsEnd (paramBound rules))
    if ← operator? "=" then discard rules.type
    return false

/-- How a declaration is generic. -/
structure GenericsForm where
  /-- Whether there are angle brackets. -/
  bracketed : Bool
  /-- Whether there are parameters. -/
  isGeneric : Bool

/-- The generic parameters of a declaration. -/
def genericParams (rules : Rules) : Reader GenericsForm := do
  if !(← peek (atOperator "<")) then return ⟨false, false⟩
  let (params, trailing) ← silently do
    operator "<"
    let params ← separated (atOperator ">") "," (captured (genericParam rules))
    operator ">"
    return params
  if !params.isEmpty then
    write (Token.operator "<" ++ arrangeArgs params trailing ++ Token.operator ">")
  return ⟨true, !params.isEmpty⟩

/-- Whether a `where` clause ends here. -/
def atClauseEnd (ts : List Token) : Bool :=
  ts.isEmpty || atGroup .brace ts || atOperator "," ts || atOperator ";" ts ||
    (atOperator ":" ts && !atOperator "::" ts) || atOperator "=" ts

/-- A condition of a `where` clause. -/
def wherePredicate (rules : Rules) : Reader Unit := do
  let ts ← ahead
  if atLifetime ts && atOperator ":" (skipToken ts) then
    discard lifetime
    operator ":"
    discard <| joined (fun ts => atClauseEnd ts || atOperator ":" ts) "+" (discard lifetime)
  else
    if atWord "for" ts then boundLifetimes rules
    discard rules.type
    operator ":"
    discard (joined atClauseEnd "+" (paramBound rules))

/-- The conditions of a `where` clause; the comma before the end may be missing. -/
def wherePredicates (rules : Rules) : Nat → Reader Unit
  | 0 => failure
  | n + 1 => do
    if ← peek atClauseEnd then return
    wherePredicate rules
    if ← operator? "," then wherePredicates rules n

/-- A `where` clause, if there is one, which is returned. -/
def whereClause (rules : Rules) : Reader Bool := do
  if ← silently (word? "where") then
    let (_, tokens) ← captured do wherePredicates rules ((← ahead).length + 2)
    if !tokens.isEmpty then write (.ident "where" :: tokens)
    return true
  else return false

end ServiceDispatch.Grammar
