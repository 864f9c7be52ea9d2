import ServiceDispatch.Resolver

/-!
# Resolved types

The rendered form of a type is the text of a tree that has a path of an item where the type has a
path. The tree depends on the symbol table only through the paths in the type.
-/

namespace ServiceDispatch

mutual

/-- A type with the meaning of each path in it. -/
inductive ResolvedTy where
  /-- An item, or a primitive type. -/
  | path (base : ItemPath)
  /-- An item with arguments in angle brackets. -/
  | applied (base : ItemPath) (args : List ResolvedArg)
  | tuple (elems : List ResolvedTy)
  | array (elem : ResolvedTy) (length : List Token)
  | slice (elem : ResolvedTy)
  /-- A reference with the lifetime `'static`. -/
  | reference (mutable : Bool) (target : ResolvedTy)

/-- A generic argument with the meaning of each path in it. -/
inductive ResolvedArg where
  /-- The lifetime `'static`. -/
  | static
  | type (type : ResolvedTy)
  | const (value : List Token)

end

namespace ResolvedTy

mutual

/-- The text of a resolved type. -/
def text : ResolvedTy → String
  | .path base => base.text
  | .applied base args => base.text ++ ("<" ++ ", ".intercalate (textsOfArgs args) ++ ">")
  | .tuple elems => SymbolTable.renderTuple (textsOfAll elems)
  | .array elem length => "[" ++ elem.text ++ "; " ++ Token.printAll length ++ "]"
  | .slice elem => "[" ++ elem.text ++ "]"
  | .reference mutable target =>
    "&" ++ "'static " ++ (if mutable then "mut " else "") ++ target.text

/-- The texts of several types. -/
def textsOfAll : List ResolvedTy → List String
  | [] => []
  | t :: ts => t.text :: textsOfAll ts

/-- The text of a generic argument. -/
def textOfArg : ResolvedArg → String
  | .static => "'static"
  | .type t => t.text
  | .const value => Token.printAll value

/-- The texts of several generic arguments. -/
def textsOfArgs : List ResolvedArg → List String
  | [] => []
  | arg :: args => textOfArg arg :: textsOfArgs args

end

/-! ## Resolving to a tree -/

/-- A way to give a path in a type its meaning, given the text of the type. -/
abbrev BaseResolver := String → Bool → List Segment → Except ResolveError ItemPath

mutual

/-- Give each path in a type its meaning. -/
def ofTy (base : BaseResolver) : Ty → Except ResolveError ResolvedTy
  | .path rooted segments => do
    let whole := (Ty.path rooted segments).text
    let path ← base whole rooted segments
    match ← ofLastArgs base whole segments with
    | none => return .path path
    | some args => return .applied path args
  | .tuple elems _ => return .tuple (← ofTys base elems)
  | .array elem length => return .array (← ofTy base elem) length
  | .slice elem => return .slice (← ofTy base elem)
  | .reference lifetime mutable target => do
    let whole := (Ty.reference lifetime mutable target).text
    let _ ← SymbolTable.staticLifetime whole lifetime
    return .reference mutable (← ofTy base target)
  | .paren inner => ofTy base inner
  | .qualified tokens => .error (.unsupported (Token.printAll tokens))
  | .object tokens => .error (.unsupported (Token.printAll tokens))
  | .other tokens => .error (.unsupported (Token.printAll tokens))

/-- Give each path in several types its meaning. -/
def ofTys (base : BaseResolver) : List Ty → Except ResolveError (List ResolvedTy)
  | [] => return []
  | t :: ts => return (← ofTy base t) :: (← ofTys base ts)

/-- The arguments of the last segment of a path, if it has brackets. -/
def ofLastArgs (base : BaseResolver) (whole : String) :
    List Segment → Except ResolveError (Option (List ResolvedArg))
  | [] => return none
  | [.mk _ args] => ofArgs base whole args
  | _ :: s :: rest => ofLastArgs base whole (s :: rest)

/-- The arguments of a segment, if it has brackets. -/
def ofArgs (base : BaseResolver) (whole : String) :
    PathArgs → Except ResolveError (Option (List ResolvedArg))
  | .none => return none
  | .angled _ args _ => return some (← ofTyArgs base whole args)
  | .call _ => .error (.unsupported whole)

/-- Give each path in generic arguments its meaning. -/
def ofTyArgs (base : BaseResolver) (whole : String) :
    List TyArg → Except ResolveError (List ResolvedArg)
  | [] => return []
  | arg :: args => return (← ofTyArg base whole arg) :: (← ofTyArgs base whole args)

/-- Give each path in a generic argument its meaning. -/
def ofTyArg (base : BaseResolver) (whole : String) : TyArg → Except ResolveError ResolvedArg
  | .type type => return .type (← ofTy base type)
  | .lifetime name => if name = "static" then .ok .static else .error (.lifetime whole)
  | .const value => .ok (.const value)
  | .binding _ => .error (.unsupported whole)

end

end ResolvedTy

namespace SymbolTable

open ResolvedTy

/-- The text of the arguments of a segment, which may have no brackets. -/
def renderArgs : Option (List ResolvedArg) → String
  | none => ""
  | some args => "<" ++ ", ".intercalate (textsOfArgs args) ++ ">"

mutual

/-- A type renders as the text of its resolved form, and fails with the same error. Statements about
the text of a type are proved for the resolved form, which still has the shape of the type. -/
theorem resolveTy_eq (table : SymbolTable) (scope : ItemPath) (t : Ty) :
    table.resolveTy scope t = (ofTy (table.resolveBase scope) t).map text := by
  cases t with
  | path rooted segments =>
    have hargs := resolveLastArgs_eq table scope (Ty.path rooted segments).text segments
    rw [resolveTy, ofTy, hargs]
    cases table.resolveBase scope (Ty.path rooted segments).text rooted segments with
    | error e => rfl
    | ok base =>
      cases ofLastArgs (table.resolveBase scope) (Ty.path rooted segments).text segments with
      | error e => rfl
      | ok args =>
        cases args with
        | none => exact congrArg Except.ok (String.append_empty)
        | some args => rfl
  | tuple elems trailing =>
    have helems := resolveTys_eq table scope elems
    rw [resolveTy, ofTy, helems]
    cases ofTys (table.resolveBase scope) elems <;> rfl
  | array elem length =>
    have helem := resolveTy_eq table scope elem
    rw [resolveTy, ofTy, helem]
    cases ofTy (table.resolveBase scope) elem <;> rfl
  | slice elem =>
    have helem := resolveTy_eq table scope elem
    rw [resolveTy, ofTy, helem]
    cases ofTy (table.resolveBase scope) elem <;> rfl
  | reference lifetime mutable target =>
    have htarget := resolveTy_eq table scope target
    rw [resolveTy, ofTy, htarget]
    cases hlifetime : staticLifetime (Ty.reference lifetime mutable target).text lifetime with
    | error e => rfl
    | ok name =>
      have hname : name = "'static " := by
        unfold staticLifetime at hlifetime
        split at hlifetime
        · exact (Except.ok.inj hlifetime).symm
        · exact nomatch hlifetime
        · exact nomatch hlifetime
      subst hname
      cases ofTy (table.resolveBase scope) target <;> rfl
  | paren inner =>
    rw [resolveTy, ofTy]
    exact resolveTy_eq table scope inner
  | qualified tokens => rfl
  | object tokens => rfl
  | other tokens => rfl

/-- Types render as the texts of their resolved forms. -/
theorem resolveTys_eq (table : SymbolTable) (scope : ItemPath) (ts : List Ty) :
    table.resolveTys scope ts = (ofTys (table.resolveBase scope) ts).map textsOfAll := by
  cases ts with
  | nil => rfl
  | cons t ts =>
    rw [resolveTys, ofTys, resolveTy_eq table scope t, resolveTys_eq table scope ts]
    cases ofTy (table.resolveBase scope) t with
    | error e => rfl
    | ok t => cases ofTys (table.resolveBase scope) ts <;> rfl

/-- The arguments of a path render as the text of their resolved forms. -/
theorem resolveLastArgs_eq (table : SymbolTable) (scope : ItemPath) (whole : String)
    (segments : List Segment) :
    table.resolveLastArgs scope whole segments =
      (ofLastArgs (table.resolveBase scope) whole segments).map renderArgs := by
  cases segments with
  | nil => rfl
  | cons segment segments =>
    cases segments with
    | nil =>
      cases segment with
      | mk name args => exact resolveArgs_eq table scope whole args
    | cons next rest =>
      rw [resolveLastArgs, ofLastArgs]
      exact resolveLastArgs_eq table scope whole (next :: rest)

/-- The arguments of a segment render as the text of their resolved forms. -/
theorem resolveArgs_eq (table : SymbolTable) (scope : ItemPath) (whole : String)
    (args : PathArgs) :
    table.resolveArgs scope whole args =
      (ofArgs (table.resolveBase scope) whole args).map renderArgs := by
  cases args with
  | none => rfl
  | angled turbofish args trailing =>
    rw [resolveArgs, ofArgs, resolveTyArgs_eq table scope whole args]
    cases ofTyArgs (table.resolveBase scope) whole args <;> rfl
  | call tokens => rfl

/-- Generic arguments render as the texts of their resolved forms. -/
theorem resolveTyArgs_eq (table : SymbolTable) (scope : ItemPath) (whole : String)
    (args : List TyArg) :
    table.resolveTyArgs scope whole args =
      (ofTyArgs (table.resolveBase scope) whole args).map textsOfArgs := by
  cases args with
  | nil => rfl
  | cons arg args =>
    rw [resolveTyArgs, ofTyArgs, resolveTyArg_eq table scope whole arg,
      resolveTyArgs_eq table scope whole args]
    cases ofTyArg (table.resolveBase scope) whole arg with
    | error e => rfl
    | ok arg => cases ofTyArgs (table.resolveBase scope) whole args <;> rfl

/-- A generic argument renders as the text of its resolved form. -/
theorem resolveTyArg_eq (table : SymbolTable) (scope : ItemPath) (whole : String) (arg : TyArg) :
    table.resolveTyArg scope whole arg =
      (ofTyArg (table.resolveBase scope) whole arg).map textOfArg := by
  cases arg with
  | type type =>
    rw [resolveTyArg, ofTyArg, resolveTy_eq table scope type]
    cases ofTy (table.resolveBase scope) type <;> rfl
  | lifetime name =>
    rw [resolveTyArg, ofTyArg]
    split <;> rfl
  | const value => rfl
  | binding tokens => rfl

end

end SymbolTable

end ServiceDispatch
