import ServiceDispatch.Grammar.Nonterminal

/-!
# Reading types

Paths with generic arguments, trait bounds, function types and all other written forms of
types.
-/

namespace ServiceDispatch.Grammar

/-! ## Paths -/

/-- A constant as a generic argument: a literal, a name or a block. -/
def constArgument (rules : Rules) : Reader Unit := do
  let ts ← ahead
  if atLiteral ts then discard literal
  else if atName ts then discard name
  else discard (attributedBlock rules)

/-- The lifetimes of a quantifier `for<…>`. -/
def boundLifetimes (rules : Rules) : Reader Unit := do
  word "for"
  operator "<"
  discard <| separated (atOperator ">") "," do
    discard (outerAttributes rules)
    discard lifetime
  operator ">"

/-- The result type after an arrow, if there is one. -/
def resultType (rules : Rules) (plus : Bool) : Reader (Option Ty) := do
  if ← operator? "->" then return some (← rules (.type plus)) else return none

/-- Arguments in parentheses with a result type. -/
def callArgs (rules : Rules) : Reader Unit := do
  discard <| group .paren (commaList rules.type)
  discard <| resultType rules false

/-- Whether arguments in parentheses follow, with or without `::` before them. -/
def atCallArgs (ts : List Token) : Bool :=
  atGroup .paren ts || (atOperator "::" ts && atGroup .paren (ts.drop 2))

/-- In a bound, a path whose last segment has no arguments takes those in parentheses that follow
it. -/
def withCallArgs (rules : Rules) (segments : List Segment) : Reader (List Segment) := do
  match segments.getLast? with
  | some last =>
    if last.args.isEmpty && (← peek atCallArgs) then
      discard (silently (operator? "::"))
      let (_, tokens) ← captured (callArgs rules)
      return segments.dropLast ++ [.mk last.name (.call tokens)]
    else return segments
  | none => return segments

/-- What a bound turned out to be. -/
inductive BoundForm where
  | lifetime
  | capture
  | trait
deriving DecidableEq

/-- A lifetime or type name with its tokens; whether it is a lifetime is returned. -/
def capturedName : Reader (Bool × List Token) := do
  let ts ← ahead
  if atLifetime ts then return (true, Token.lifetime (← lifetime))
  else if atWord "Self" ts then return (false, [.ident (← anyWord)])
  else return (false, [.ident (← name)])

/-- The names captured by a bound `use<…>`, lifetimes written first. -/
def captureBound : Reader Unit := do
  word "use"
  operator "<"
  let (names, trailing) ← silently (separated (atOperator ">") "," capturedName)
  write (arrangeArgs names trailing)
  operator ">"

/-- The generic arguments of a segment. -/
def angledArgs (arg : Reader TyArg) : Reader PathArgs := do
  let turbofish ← operator? "::"
  operator "<"
  let (args, trailing) ← separated (atOperator ">") "," arg
  operator ">"
  return .angled turbofish args trailing

/-- One segment of a path. In an expression generic arguments need `::` before them. -/
def segment (arg : Reader TyArg) (inExpr : Bool) : Reader Segment := do
  let ts ← ahead
  if atWord "super" ts || atWord "self" ts || atWord "crate" ts || atWord "try" ts then
    return .mk (← anyWord) .none
  let name ← if atWord "Self" ts then anyWord else name
  let ts ← ahead
  let angled := !inExpr && atOperator "<" ts && !atOperator "<=" ts && !atOperator "<<=" ts
  let turbofish := atOperator "::" ts && atOperator "<" (ts.drop 2)
  if angled || turbofish then
    let args ← silently (angledArgs arg)
    write args.tokens
    return .mk name args
  else return .mk name .none

/-- A path that does not go through a type. -/
def segments (arg : Reader TyArg) (inExpr : Bool) : Reader (Bool × List Segment) := do
  let rooted ← operator? "::"
  let first ← segment arg inExpr
  let more ← repeatWhile (fun ts => atOperator "::" ts && !atGroup .paren (ts.drop 2)) do
    operator "::"
    segment arg inExpr
  return (rooted, first :: more)

/-- The path of a trait. -/
def traitPath (rules : Rules) (arg : Reader TyArg) : Reader (Bool × List Segment) := do
  let (rooted, path) ← segments arg false
  return (rooted, ← withCallArgs rules path)

/-- A trait, with its quantifier and its modifiers. -/
def traitBound (rules : Rules) (arg : Reader TyArg) (allowConst : Bool) : Reader Unit := do
  let quantified ← peek (atWord "for")
  if quantified then boundLifetimes rules
  let ts ← ahead
  if atOperator "~" ts then
    operator "~"
    word "const"
    require allowConst
  else if atWord "const" ts then
    word "const"
    require allowConst
  let relaxed ← operator? "?"
  require !(quantified && relaxed)
  require !(relaxed && (← peek (atWord "for")))
  let (rooted, path) ← silently (traitPath rules arg)
  write (Ty.path rooted path).tokens

/-- One bound of a type. -/
def bound (rules : Rules) (arg : Reader TyArg) (allowCapture allowConst : Bool) :
    Reader BoundForm := do
  let ts ← ahead
  if atLifetime ts then
    discard lifetime
    return .lifetime
  else if atWord "use" ts then
    require allowCapture
    captureBound
    return .capture
  else
    if atGroup .paren ts then group .paren (traitBound rules arg allowConst)
    else traitBound rules arg allowConst
    return .trait

/-- Whether another bound may follow a plus sign. -/
def atBound (ts : List Token) : Bool :=
  atAnyWord ts || atOperator "::" ts || atOperator "?" ts || atLifetime ts || atGroup .paren ts

/-- Bounds joined by plus signs, of which at least one has to be a trait. A plus sign may stand
at the end. -/
def objectBounds (rules : Rules) (arg : Reader TyArg) (plus allowCapture allowConst : Bool) :
    Reader Unit := do
  let one := bound rules arg allowCapture allowConst
  let first ← one
  let more ← if plus then repeatStep do
      if ← operator? "+" then
        if ← peek fun ts => atBound ts || atOperator "~" ts then return some (← one)
        else return none
      else return none
    else pure []
  require ((first :: more).any (· = .trait))

/-- One generic argument, given the reader of its own kind for nested paths. -/
def genericArgOf (rules : Rules) (arg : Reader TyArg) : Reader TyArg := do
  let ts ← ahead
  if atLifetime ts && !atOperator "+" (skipToken ts) then
    return .lifetime (← lifetime)
  else if atLiteral ts || atGroup .brace ts then
    let (_, value) ← captured (constArgument rules)
    return .const value
  else
    let (type?, tokens) ← captured do
      let t ← rules.type
      let bindable := match t with
        | .path false [_] => true
        | _ => false
      if bindable && (← peek (atOperator "=")) then
        operator "="
        let ts ← ahead
        if atLiteral ts || atGroup .brace ts then constArgument rules else discard rules.type
        return none
      else if bindable && (← peek (atOperator ":")) then
        operator ":"
        discard <| joined (fun ts => atOperator "," ts || atOperator ">" ts) "+"
          (bound rules arg false true)
        return none
      else return some t
    match type? with
    | some t => return .type t
    | none => return .binding tokens

/-- One generic argument. Only its bounds contain further arguments that are not inside a type
of their own, so a bounded depth of such nesting suffices. -/
def genericArgUpTo (rules : Rules) : Nat → Reader TyArg
  | 0 => failure
  | n + 1 => genericArgOf rules (genericArgUpTo rules n)

/-- One generic argument; nested ones stand in the tokens ahead, which bound their depth. -/
def genericArg (rules : Rules) : Reader TyArg := do
  genericArgUpTo rules (Token.sizeAll (← ahead) + 1)

/-- A path, possibly through a type: the path, or the tokens of a qualified one. -/
def pathForm (rules : Rules) (inExpr : Bool) : Reader Ty := do
  if ← peek (atOperator "<") then
    let (_, tokens) ← captured do
      operator "<"
      discard rules.type
      if ← word? "as" then
        let (rooted, path) ← silently do
          let (rooted, path) ← segments (genericArg rules) false
          return (rooted, path)
        write (Ty.path rooted path).tokens
      operator ">"
      operator "::"
      discard <| segment (genericArg rules) inExpr
      discard <| repeatWhile (atOperator "::") do
        operator "::"
        discard <| segment (genericArg rules) inExpr
    write tokens
    return .qualified tokens
  else
    let (rooted, path) ← segments (genericArg rules) inExpr
    return .path rooted path

/-- Whether a path is made of plain names. -/
def isPlain : Ty → Bool
  | .path _ segments => segments.all fun s => match s.args with
    | .none => true
    | _ => false
  | _ => false

/-- The rest of an invocation after its path. -/
def invocationBody : Reader Delimiter := do
  operator "!"
  return (← anyGroup).1

/-- Whether an exclamation mark stands ahead that is not part of `!=`. -/
def atBang (ts : List Token) : Bool := atOperator "!" ts && !atOperator "!=" ts

/-! ## Function types -/

/-- The calling convention of a function, if it is given. -/
def convention : Reader Unit := do
  if ← word? "extern" then
    if ← peek atString then discard stringLiteral

/-- Whether a name and a colon stand ahead. -/
def atNamed (ts : List Token) : Bool :=
  (atName ts || atWord "_" ts) && atOperator ":" (ts.drop 1)

/-- A parameter of a function type. -/
def functionTypeParam (rules : Rules) (first : Bool) : Reader Unit := do
  let mutSelf := first && (← peek fun ts => atWord "mut" ts && atWord "self" (ts.drop 1))
  if mutSelf then word "mut"
  let named ← peek fun ts =>
    (atName ts || atWord "_" ts || (first && atWord "self" ts)) && atOperator ":" (ts.drop 1) &&
      !atOperator "::" (ts.drop 1)
  if named then
    discard anyWord
    operator ":"
  if mutSelf && !named then word "self" else discard rules.type

/-- The parameters of a function type; the last one may be open. -/
def functionTypeParams (rules : Rules) : Nat → Bool → Reader Unit
  | 0, _ => failure
  | n + 1, first => do
    if ← atEnd then return
    discard (outerAttributes rules)
    if ← peek fun ts => atOperator "..." ts || (atNamed ts && atOperator "..." (ts.drop 2)) then
      if !(← peek (atOperator "...")) then
        discard anyWord
        operator ":"
      operator "..."
      discard (operator? ",")
    else
      functionTypeParam rules first
      if ← atEnd then return
      operator ","
      functionTypeParams rules n false

/-- A function type without its quantifier. -/
def functionType (rules : Rules) : Reader Unit := do
  discard (word? "unsafe")
  convention
  word "fn"
  group .paren do functionTypeParams rules ((← ahead).length + 2) true
  discard (resultType rules false)

/-! ## Types -/

/-- What stands in parentheses at the beginning of a type. -/
inductive ParenForm where
  | whole (type : Ty)
  | relaxedBound
  | single (type : Ty)

/-- The inside of parentheses at the beginning of a type. -/
def parenForm (rules : Rules) : Reader ParenForm := do
  let ts ← ahead
  if ts.isEmpty then return .whole (.tuple [] false)
  else if atLifetime ts then
    let (_, tokens) ← captured (objectBounds rules (genericArg rules) true false false)
    return .whole (.paren (.object tokens))
  else if atOperator "?" ts then
    traitBound rules (genericArg rules) false
    return .relaxedBound
  else
    let first ← rules.type
    if ← operator? "," then
      let (more, trailing) ← commaList rules.type
      return .whole (.tuple (first :: more) (more.isEmpty || trailing))
    else return .single first

/-- Further bounds after the first one of an object type, each after a plus sign. -/
def plusBounds (rules : Rules) : Reader Unit := do
  discard <| repeatWhile (atOperator "+") do
    operator "+"
    discard (bound rules (genericArg rules) false false)

/-- Whether a type in parentheses may be the first of several bounds. -/
def isBoundType : Ty → Bool
  | .path _ _ => true
  | _ => false

/-- Whether an object type consists of a single bound without `dyn`. -/
def isSingleBound (tokens : List Token) : Bool :=
  !atWord "dyn" tokens && !tokens.any fun
    | .punct '+' _ => true
    | _ => false

/-- A type that begins with parentheses. -/
def parenType (rules : Rules) (plus : Bool) : Reader Ty := do
  let (form, own) ← captured (group .paren (parenForm rules))
  match form with
  | .whole type => return type
  | .relaxedBound =>
    let (_, more) ← captured (plusBounds rules)
    return .object (own ++ more)
  | .single type =>
    let joins := plus && (← peek (atOperator "+")) && match type with
      | .object tokens => isSingleBound tokens
      | type => isBoundType type
    if joins then
      let inner := match type with
        | .object tokens => if tokens.head?.any fun t => atLifetime [t, .ident ""] then tokens
            else [.group .paren tokens]
        | type => [.group .paren type.tokens]
      let (_, more) ← captured (plusBounds rules)
      return .object (inner ++ more)
    else return .paren type

/-- A type that begins with a path. -/
def pathType (rules : Rules) (plus : Bool) (quantifier : Option (List Token)) : Reader Ty := do
  let path ← pathForm rules false
  match path with
  | .path rooted segments =>
    let path := Ty.path rooted segments
    if isPlain path && (← peek atBang) then
      let (_, tokens) ← captured invocationBody
      return .other (path.tokens ++ tokens)
    if quantifier.isSome || (plus && (← peek (atOperator "+"))) then
      let (_, more) ← captured do
        if plus then
          discard <| repeatStep do
            if ← operator? "+" then
              if ← peek atBound then
                return some (← bound rules (genericArg rules) false false)
              else return none
            else return none
      return .object (quantifier.getD [] ++ path.tokens ++ more)
    return path
  | path => return path

/-- Whether a type may follow a quantifier `for<…>`. -/
def atQuantified (ts : List Token) : Bool :=
  atName ts || ["fn", "unsafe", "extern", "super", "self", "Self", "crate"].any (atWord · ts)

/-- A type, built without writing. -/
def typeForm (rules : Rules) (plus : Bool) : Reader Ty := do
  let quantifier ← if ← peek (atWord "for") then
      let (_, tokens) ← captured (boundLifetimes rules)
      require (← peek atQuantified)
      pure (some tokens)
    else pure none
  let prefixTokens := quantifier.getD []
  let ts ← ahead
  let kept {α : Type} (p : Reader α) : Reader (List Token) := return (← captured p).2
  if atGroup .paren ts then parenType rules plus
  else if atWord "fn" ts || atWord "unsafe" ts || atWord "extern" ts then
    return .other (prefixTokens ++ (← kept (functionType rules)))
  else if atName ts || atWord "super" ts || atWord "self" ts || atWord "Self" ts ||
      atWord "crate" ts || atOperator "::" ts || atOperator "<" ts then
    pathType rules plus quantifier
  else if atWord "dyn" ts then
    if atOperator "*" (ts.drop 1) then
      return .other (← kept (verbatim do
        word "dyn"
        operator "*"
        objectBounds rules (genericArg rules) plus false false))
    return .object (← kept do
      word "dyn"
      objectBounds rules (genericArg rules) plus false false)
  else if atGroup .bracket ts then
    group .bracket do
      let elem ← rules.type
      if ← operator? ";" then
        let (_, length) ← captured rules.expr
        return .array elem length
      else return .slice elem
  else if atOperator "*" ts then
    return .other (← kept do
      operator "*"
      if !(← word? "const") then word "mut"
      discard (rules (.type false)))
  else if atOperator "&" ts then
    operator "&"
    let lifetime ← lifetime?
    let mutable ← word? "mut"
    return .reference lifetime mutable (← rules (.type false))
  else if atOperator "!" ts then
    return .other (← kept (operator "!"))
  else if atWord "impl" ts then
    return .other (← kept do
      word "impl"
      objectBounds rules (genericArg rules) plus true true)
  else if atWord "_" ts then
    return .other (← kept (word "_"))
  else if atLifetime ts then
    return .object (← kept (objectBounds rules (genericArg rules) true false false))
  else failure

/-- A type. -/
def readType (rules : Rules) (plus : Bool) : Reader Ty := do
  let type ← silently (typeForm rules plus)
  write type.tokens
  return type

end ServiceDispatch.Grammar
