import ServiceDispatch.Grammar.Functions
import ServiceDispatch.Grammar.Statements

/-!
# Reading items

Declarations of modules, types, functions, imports and `impl` blocks. A form that is accepted
without a meaning, such as a function without a body, is kept as it was written.
-/

namespace ServiceDispatch.Grammar

/-! ## Parts of items -/

/-- Read a form that may turn out to have no meaning; then its tokens are written unchanged and
the items inside it do not count. -/
def orAsWritten {α : Type} (p : Reader (Option α)) : Reader (Option α) := do
  let start ← get
  match ← p with
  | some a => return some a
  | none =>
    let rest ← ahead
    let own := start.rest.take (start.rest.length - rest.length)
    set { start with rest, written := own.reverse ++ start.written }
    return none

/-- The restriction of a visibility, in parentheses; other parentheses belong to what follows. -/
def restriction : Reader (List String) :=
  group .paren do
    if ← word? "in" then return (← plainPath).2
    else
      let ts ← ahead
      require (atWord "crate" ts || atWord "self" ts || atWord "super" ts)
      return [← anyWord]

/-- A visibility. -/
def visibility : Reader Visibility := do
  if !(← word? "pub") then return .inherited
  match ← ahead with
  | .group .paren body :: _ =>
    if atWord "in" body then return .within (← restriction)
    else match ← attempt restriction with
      | some path => return .within path
      | none => return .everyone
  | _ => return .everyone

/-- Whether a path of plain names may stand ahead. -/
def atPlainPath (ts : List Token) : Bool :=
  atName ts || atOperator "::" ts || ["self", "super", "crate"].any (atWord · ts)

/-- An invocation as an item; a semicolon follows unless it ends in a brace. -/
def invocationItem (named : Bool) : Reader Unit := do
  discard plainPath
  operator "!"
  if named then
    if ← peek fun ts => atName ts || atWord "try" ts then discard anyWord
  let (d, _) ← anyGroup
  if d != .brace then operator ";"

/-- A name or an underscore. -/
def nameOrUnderscore : Reader String := do
  let ts ← ahead
  require (atName ts || atWord "_" ts)
  anyWord

/-- A constant after its visibility; whether it has the form of a plain constant is returned. -/
def constant (rules : Rules) : Reader Bool := do
  word "const"
  discard nameOrUnderscore
  let generics ← genericParams rules
  operator ":"
  discard rules.type
  let hasValue ← operator? "="
  if hasValue then discard rules.expr
  let isRestricted ← whereClause rules
  operator ";"
  return hasValue && !generics.bracketed && !isRestricted

/-- What a type alias turned out to have. -/
structure AliasForm where
  name : String
  hasBounds : Bool
  hasDefinition : Bool

/-- A type alias after its visibility. Its `where` clause stands before the definition, after
it, or in either place. -/
def typeAlias (rules : Rules) (before after : Bool) : Reader AliasForm := do
  word "type"
  let name ← name
  discard (genericParams rules)
  let hasBounds ← colonBounds
    (fun ts => atWord "where" ts || atOperator "=" ts || atOperator ";" ts) (paramBound rules)
  let early ← if before then whereClause rules else pure false
  let hasDefinition ← operator? "="
  if hasDefinition then discard rules.type
  if after && !early then discard (whereClause rules)
  operator ";"
  return ⟨name, hasBounds, hasDefinition⟩

/-- A function body; its inner attributes are returned. -/
def functionBody (rules : Rules) : Reader (List Attribute) := attributedBlock rules

/-! ## Fields -/

/-- A field with a name, or a field `_` whose own fields may be given in place of a type. -/
def namedField (rules : Rules) (nested : Reader Unit) : Reader Unit := do
  discard (outerAttributes rules)
  discard visibility
  let unnamed ← peek (atWord "_")
  discard nameOrUnderscore
  operator ":"
  let ts ← ahead
  if unnamed && (atWord "struct" ts || (atWord "union" ts && atGroup .brace (ts.drop 1))) then
    verbatim do
      discard anyWord
      nested
  else discard rules.type

/-- Fields in braces, nested to a bounded depth. -/
def namedFieldsUpTo (rules : Rules) : Nat → Reader Unit
  | 0 => failure
  | n + 1 => discard (group .brace (commaList (namedField rules (namedFieldsUpTo rules n))))

/-- Fields in braces; the tokens ahead bound how deeply they are nested. -/
def namedFields (rules : Rules) : Reader Unit := do
  namedFieldsUpTo rules (Token.sizeAll (← ahead) + 1)

/-- Fields in parentheses. -/
def tupleFields (rules : Rules) : Reader Unit :=
  discard <| group .paren <| commaList do
    discard (outerAttributes rules)
    discard visibility
    discard rules.type

/-- A variant of an enum; a visibility before it is not written. -/
def variant (rules : Rules) : Reader Unit := do
  discard (outerAttributes rules)
  discard (silently visibility)
  discard name
  let ts ← ahead
  if atGroup .brace ts then namedFields rules
  else if atGroup .paren ts then tupleFields rules
  if ← operator? "=" then discard rules.expr

/-- The body of a struct. -/
def structBody (rules : Rules) : Reader Unit := do
  let restricted ← whereClause rules
  let ts ← ahead
  if !restricted && atGroup .paren ts then
    tupleFields rules
    discard (whereClause rules)
    operator ";"
  else if atGroup .brace ts then namedFields rules
  else operator ";"

/-- A name that can be one segment of a path; every name is. -/
def asSegment (text : String) : Reader { name : String // IsSegment name } :=
  if h : IsSegment text then return ⟨text, h⟩ else failure

/-- A struct, enum or union after its visibility: its name and whether it is generic. -/
def typeDecl (rules : Rules) (body : Reader Unit) :
    Reader ({ name : String // IsSegment name } × Bool) := do
  discard anyWord
  let name ← asSegment (← name)
  let generics ← genericParams rules
  body
  return (name, generics.isGeneric)

/-! ## Imports -/

/-- An import tree, or nothing for one in which a member of a group is rooted; `rooted` tells
whether a member may be. -/
def useTree : Nat → Bool → Reader (Option UseTree)
  | 0, _ => failure
  | n + 1, rooted => do
    let ts ← ahead
    if atOperator "*" ts then
      operator "*"
      return some .glob
    else if atGroup .brace ts then
      let (trees, _) ← group .brace <| commaList do
        let isRooted ← if rooted then operator? "::" else pure false
        let tree ← useTree n (rooted && !isRooted)
        return if isRooted then none else tree
      return (trees.mapM id).map .group
    else
      require (atName ts || ["self", "super", "crate", "try"].any (atWord · ts))
      let first ← anyWord
      if ← operator? "::" then
        let tree ← useTree n false
        return tree.map (.path first)
      else if ← word? "as" then return some (.rename first (← nameOrUnderscore))
      else return some (.name first)

/-! ## Members of blocks -/

/-- A function of an `impl` block; nothing without a body. -/
def method (rules : Rules) : Reader (Option MethodDecl) := do
  let outer ← outerAttributes rules
  let scope ← visibility
  discard (word? "default")
  let s ← signature rules false
  if ← operator? ";" then return none
  let inner ← functionBody rules
  return some ⟨outer ++ inner, scope, s.name, s.isAsync, s.isUnsafe, s.hasReceiver, s.isGeneric,
    s.params, s.result⟩

/-- A member of an `impl` block; the functions are returned. -/
def implMember (rules : Rules) : Reader (Option MethodDecl) := do
  let start ← get
  discard (outerAttributes rules)
  let scope ← visibility
  let isDefault ← peek fun ts => atWord "default" ts && !atOperator "!" (ts.drop 1)
  if isDefault then word "default"
  let ts ← ahead
  if atSignature false ts then
    set start
    method rules
  else if atWord "const" ts then
    discard (constant rules)
    return none
  else if atWord "type" ts then
    discard (typeAlias rules false true)
    return none
  else
    require (scope == .inherited && !isDefault && atPlainPath ts)
    invocationItem false
    return none

/-- A member of a trait. -/
def traitMember (rules : Rules) : Reader Unit := do
  discard (outerAttributes rules)
  let scope ← visibility
  let isDefault ← word? "default"
  let ts ← ahead
  if atSignature false ts then
    discard (signature rules false)
    if !(← operator? ";") then discard (functionBody rules)
  else if atWord "const" ts then discard (constant rules)
  else if atWord "type" ts then discard (typeAlias rules false true)
  else
    require (scope == .inherited && !isDefault && atPlainPath ts)
    invocationItem false

/-- A foreign function or variable; nothing if it is marked or has a body or a value. -/
def foreignMember (rules : Rules) : Reader (Option Unit) := do
  discard (outerAttributes rules)
  let scope ← visibility
  let ts ← ahead
  if atSignature true ts then
    let isSafe ← peek (atWord "safe")
    discard (signature rules true)
    if ← operator? ";" then return if isSafe then none else some ()
    discard (functionBody rules)
    return none
  else if atWord "static" ts ||
      ((atWord "unsafe" ts || atWord "safe" ts) && atWord "static" (ts.drop 1)) then
    let marked := !atWord "static" ts
    if marked then discard anyWord
    word "static"
    discard (word? "mut")
    discard name
    operator ":"
    discard rules.type
    let hasValue ← operator? "="
    if hasValue then discard rules.expr
    operator ";"
    return if marked || hasValue then none else some ()
  else if atWord "type" ts then
    let form ← typeAlias rules true true
    return if form.hasBounds || form.hasDefinition then none else some ()
  else
    require (scope == .inherited && atPlainPath ts)
    invocationItem false
    return some ()

/-! ## Items -/

/-- What an item is once the items inside it are known. -/
abbrev ItemForm := List Item → Item

/-- A module. -/
def moduleItem (rules : Rules) (outer : List Attribute) (scope : Visibility) :
    Reader ItemForm := do
  discard (word? "unsafe")
  word "mod"
  let ⟨name, isSegment⟩ ← asSegment (← if ← peek (atWord "try") then anyWord else name)
  if ← operator? ";" then return fun _ => .module ⟨outer, scope, name, isSegment⟩ none
  let (inner, items) ← group .brace do
    let inner ← innerAttributes rules
    let items : List Item ← untilEnd (rules .item)
    return (inner, items)
  return fun found => .module ⟨outer ++ inner, scope, name, isSegment⟩ (some (found ++ items))

/-- A block of foreign declarations. -/
def foreignItem (rules : Rules) : Reader ItemForm := do
  discard (word? "unsafe")
  convention
  group .brace do
    discard (innerAttributes rules)
    discard (untilEnd (orAsWritten (foreignMember rules)))
  return .other

/-- A declaration of an external crate. -/
def externCrate : Reader ItemForm := do
  word "extern"
  word "crate"
  if !(← word? "self") then discard name
  if ← word? "as" then discard nameOrUnderscore
  operator ";"
  return .other

/-- A static variable. -/
def staticItem (rules : Rules) : Reader (Option ItemForm) := do
  word "static"
  discard (word? "mut")
  discard name
  if ← operator? "=" then
    discard rules.expr
    operator ";"
    return none
  operator ":"
  discard rules.type
  if ← operator? ";" then return none
  operator "="
  discard rules.expr
  operator ";"
  return some .other

/-- A trait, or an alias of bounds. -/
def traitItem (rules : Rules) : Reader ItemForm := do
  let isUnsafe ← word? "unsafe"
  let isAuto ← word? "auto"
  word "trait"
  let name ← name
  discard (genericParams rules)
  if !isUnsafe && !isAuto && (← peek (atOperator "=")) then
    operator "="
    discard <| joined (fun ts => atWord "where" ts || atOperator ";" ts) "+" (paramBound rules)
    discard (whereClause rules)
    operator ";"
    return .other
  else
    discard <| colonBounds (fun ts => atWord "where" ts || atGroup .brace ts) (paramBound rules)
    discard (whereClause rules)
    group .brace do
      discard (innerAttributes rules)
      discard (untilEnd (traitMember rules))
    return fun _ => .name name

/-- An `impl` block. -/
def implItem (rules : Rules) (outer : List Attribute) (scope : Visibility) :
    Reader (Option ItemForm) := do
  discard (word? "default")
  discard (word? "unsafe")
  word "impl"
  let generics ← if ← peek atGenericParams then genericParams rules else pure ⟨false, false⟩
  let isConst ← peek fun ts =>
    atWord "const" ts || (atOperator "?" ts && atWord "const" (ts.drop 1))
  if isConst then
    discard (operator? "?")
    word "const"
  let isNegative ← peek fun ts => atOperator "!" ts && !atGroup .brace (ts.drop 1)
  if isNegative then operator "!"
  let first ← rules.type
  let isFor ← word? "for"
  let selfType ← if isFor then rules.type
    else if isNegative then pure (Ty.other first.tokens)
    else pure first
  let hasTrait := isFor && match first with
    | .path _ _ => true
    | _ => false
  discard (whereClause rules)
  let (inner, members) ← group .brace do
    let inner ← innerAttributes rules
    return (inner, ← untilEnd (implMember rules))
  if scope != .inherited || isConst || (isFor && !hasTrait) then return none
  return some fun _ =>
    .impl ⟨outer ++ inner, hasTrait, generics.isGeneric, selfType, members.filterMap id⟩

/-- A definition of an invocation by the word `macro`. -/
def definitionItem : Reader Unit := do
  discard anyWord
  discard name
  if ← peek (atGroup .paren) then discard anyGroup
  let (d, _) ← anyGroup
  require (d == .brace)

/-- An item after its attributes and its visibility. -/
def itemForm (rules : Rules) (outer : List Attribute) (scope : Visibility) :
    Reader (Option ItemForm) := do
  let ts ← ahead
  let next := ts.drop 1
  let isUnsafe := atWord "unsafe" ts
  let keyword := fun (w : String) => atWord w ts || (isUnsafe && atWord w next)
  if atSignature false ts then
    discard (signature rules false)
    if ← operator? ";" then return none
    discard (functionBody rules)
    return some fun _ => .function
  else if atWord "extern" ts && atWord "crate" next then return some (← externCrate)
  else if keyword "extern" then
    require (scope == .inherited)
    return some (← foreignItem rules)
  else if atWord "use" ts then
    word "use"
    let rooted ← operator? "::"
    let tree ← useTree (Token.sizeAll (← ahead) + 1) (!rooted)
    operator ";"
    return tree.map fun tree _ => .use outer rooted tree
  else if atWord "static" ts then staticItem rules
  else if atWord "const" ts then
    return if ← constant rules then some .other else none
  else if keyword "trait" || (isUnsafe && atWord "auto" next && atWord "trait" (next.drop 1)) ||
      (atWord "auto" ts && atWord "trait" next) then
    return some (← traitItem rules)
  else if keyword "impl" || (atWord "default" ts && !atOperator "!" next) then
    implItem rules outer scope
  else if keyword "mod" then return some (← moduleItem rules outer scope)
  else if atWord "type" ts then
    let form ← typeAlias rules true false
    return if form.hasBounds || !form.hasDefinition then none else some fun _ => .name form.name
  else if atWord "struct" ts then
    let (⟨name, isSegment⟩, isGeneric) ← typeDecl rules (structBody rules)
    return some fun _ => .type ⟨.struct, outer, scope, name, isSegment, isGeneric⟩
  else if atWord "enum" ts then
    let (⟨name, isSegment⟩, isGeneric) ← typeDecl rules do
      discard (whereClause rules)
      discard (group .brace (commaList (variant rules)))
    return some fun _ => .type ⟨.enum, outer, scope, name, isSegment, isGeneric⟩
  else if atWord "union" ts && atName next then
    let (name, _) ← typeDecl rules do
      discard (whereClause rules)
      namedFields rules
    return some fun _ => .name name.val
  else if atWord "macro" ts then
    definitionItem
    return none
  else
    require (scope == .inherited && atPlainPath ts)
    invocationItem true
    return some .other

/-- An item. -/
def readItem (rules : Rules) : Reader Item := do
  let (form, found) ← collecting <| orAsWritten do
    let outer ← outerAttributes rules
    itemForm rules outer (← visibility)
  return match form with
    | some form => form found
    | none => .other []

end ServiceDispatch.Grammar
