import ServiceDispatch.Grammar.Generics

/-!
# Reading function signatures
-/

namespace ServiceDispatch.Grammar

/-- What a signature says. -/
structure Signature where
  name : String
  isAsync : Bool
  isUnsafe : Bool
  isGeneric : Bool
  hasReceiver : Bool
  /-- The types of the parameters other than the receiver. -/
  params : List Ty
  result : Option Ty

/-- A parameter of a function. -/
inductive Param where
  | receiver
  | typed (type : Ty)
  /-- Any number of further arguments. -/
  | further

/-- Whether a function begins ahead; `safe` tells whether that word may stand before it. -/
def atSignature (safe : Bool) (ts : List Token) : Bool :=
  let skipWord := fun (w : String) (ts : List Token) => if atWord w ts then ts.drop 1 else ts
  let ts := skipWord "async" (skipWord "const" ts)
  let ts := if safe && atWord "safe" ts then ts.drop 1 else skipWord "unsafe" ts
  let ts := if atWord "extern" ts then
      (if atString (ts.drop 1) then ts.drop 2 else ts.drop 1)
    else ts
  atWord "fn" ts

/-- A receiver. -/
def receiver (rules : Rules) : Reader Unit := do
  let reference ← operator? "&"
  if reference then discard lifetime?
  discard (word? "mut")
  word "self"
  if !reference then
    if ← operator? ":" then discard rules.type

/-- A parameter after its attributes. A type that begins with a generic name may stand alone; a
wildcard is written for its name. -/
def functionParam (rules : Rules) : Reader Param := do
  let ts ← ahead
  if atOperator "..." ts then
    operator "..."
    return .further
  else if (← attempt (receiver rules)).isSome then return .receiver
  else if atName ts && atOperator "<" (ts.drop 1) then
    write (.ident "_" :: Token.operator ":")
    return .typed (← rules.type)
  else
    discard rules.pattern
    operator ":"
    if ← operator? "..." then return .further
    else return .typed (← rules.type)

/-- The parameters of a function to the end of the group. Only the first one may be a receiver,
and nothing follows further arguments. -/
def functionParams (rules : Rules) : Nat → List Param → Reader (List Param)
  | 0, _ => failure
  | n + 1, done => do
    if ← atEnd then return done.reverse
    discard (outerAttributes rules)
    let param ← functionParam rules
    match param with
    | .further =>
      discard (operator? ",")
      return (param :: done).reverse
    | .receiver => require done.isEmpty
    | .typed _ => pure ()
    if ← atEnd then return (param :: done).reverse
    operator ","
    functionParams rules n (param :: done)

/-- The signature of a function. -/
def signature (rules : Rules) (safe : Bool) : Reader Signature := do
  discard (word? "const")
  let isAsync ← word? "async"
  let isUnsafe ← word? "unsafe"
  if safe && !isUnsafe then discard (word? "safe")
  convention
  word "fn"
  let name ← name
  let generics ← genericParams rules
  let params ← group .paren do functionParams rules ((← ahead).length + 2) []
  let result ← resultType rules true
  discard (whereClause rules)
  let types := params.filterMap fun
    | .typed type => some type
    | _ => none
  let hasReceiver := match params with
    | .receiver :: _ => true
    | _ => false
  return ⟨name, isAsync, isUnsafe, generics.isGeneric, hasReceiver, types, result⟩

end ServiceDispatch.Grammar
