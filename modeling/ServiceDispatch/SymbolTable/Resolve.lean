import ServiceDispatch.ResolveError
import ServiceDispatch.Source.Ty
import ServiceDispatch.SymbolTable.Lookup

/-!
# Resolving types

A type written in a module is rendered so that it means the same everywhere in the crate:
paths of the crate begin with `crate`, external ones with `::`, and only primitive types keep a
plain name. A name without a known meaning is an error.
-/

namespace ServiceDispatch

/-- The types with a plain name that is known everywhere. -/
def primitiveTypes : List String :=
  ["bool", "char", "str", "u8", "u16", "u32", "u64", "u128", "usize", "i8", "i16", "i32", "i64",
    "i128", "isize", "f32", "f64"]

/-- The names that are known everywhere without an import, with their paths. -/
def preludeTypes : List (String × ItemPath) :=
  [("String", ⟨"::std::string::String"⟩), ("Vec", ⟨"::std::vec::Vec"⟩),
    ("Option", ⟨"::std::option::Option"⟩), ("Result", ⟨"::std::result::Result"⟩),
    ("Box", ⟨"::std::boxed::Box"⟩)]

namespace SymbolTable

/-- Go up once for each `super`, and name the path steps that are left. -/
def ascend : ItemPath → List String → Except ResolveError (ItemPath × List String)
  | base, "super" :: rest =>
    match base.parent? with
    | some parent => ascend parent rest
    | none => .error .superOutOfRoot
  | base, rest => .ok (base, rest)

/-- One step of a path. -/
def member (find : Finder) (base : ItemPath) (segment : String) : Except ResolveError ItemPath :=
  match UsePath.step find base segment with
  | some path => .ok path
  | none => .error (.unknownMember base segment)

/-- The steps of a path, one after the other. -/
def descend (find : Finder) (base : ItemPath) (segments : List String) :
    Except ResolveError ItemPath :=
  segments.foldlM (member find) base

/-- What a single name means that is not known in its module. -/
def wellKnown (name : String) : Except ResolveError ItemPath :=
  if primitiveTypes.contains name then .ok ⟨name⟩
  else
    match preludeTypes.lookup name with
    | some path => .ok path
    | none => .error (.unknownName name)

/-- What a path of plain names in a module means, given how names are looked up. -/
def resolveNamesBy (table : SymbolTable) (find : Finder) (scope : ItemPath) (rooted : Bool)
    (names : List String) : Except ResolveError ItemPath :=
  match names with
  | [] => .error (.malformed "")
  | first :: rest =>
    if rooted then .ok (.external names)
    else
      match first with
      | "crate" => descend find .root rest
      | "self" => descend find scope rest
      | "super" => do
        let (base, rest) ← ascend scope names
        descend find base rest
      | name =>
        match find scope name with
        | some base => descend find base rest
        | none =>
          if rest.isEmpty then wellKnown name
          else if table.externCrates.contains name then .ok (.external names)
          else .error (.unknownName name)

/-- What a path of plain names in a module means. -/
def resolveNames (table : SymbolTable) : ItemPath → Bool → List String →
    Except ResolveError ItemPath :=
  table.resolveNamesBy table.lookup

/-- The declared item that a type is, if it is one, given how names are looked up. -/
def resolveItemBy? (table : SymbolTable) (find : Finder) (scope : ItemPath) : Ty → Option ItemPath
  | .path rooted segments =>
    match table.resolveNamesBy find scope rooted (segments.map Segment.name) with
    | .ok path => if table.hasItem path then some path else none
    | .error _ => none
  | _ => none

/-- The declared item that a type is, if it is one. -/
def resolveItem? (table : SymbolTable) : ItemPath → Ty → Option ItemPath :=
  table.resolveItemBy? table.lookup

/-- What a path in a type means: arguments are allowed at its end only, and it has to be an item
if it belongs to the crate. -/
def resolveBase (table : SymbolTable) (scope : ItemPath) (whole : String) (rooted : Bool)
    (segments : List Segment) : Except ResolveError ItemPath := do
  if segments.dropLast.any fun s => !s.args.isEmpty then throw (.unsupported whole)
  let base ← table.resolveNames scope rooted (segments.map Segment.name)
  if base.isCrateLocal && !table.hasItem base then
    throw (.unsupported (base.text ++ " is not a type"))
  return base

/-- The lifetime of a reference, which has to be `'static`. -/
def staticLifetime (whole : String) : Option String → Except ResolveError String
  | some "static" => .ok "'static "
  | some _ => .error (.lifetime whole)
  | none => .error (.unsupported whole)

/-- A tuple of rendered types. -/
def renderTuple : List String → String
  | [elem] => "(" ++ elem ++ ",)"
  | elems => "(" ++ ", ".intercalate elems ++ ")"

mutual

/-- The rendered form of a type written in a module. -/
def resolveTy (table : SymbolTable) (scope : ItemPath) : Ty → Except ResolveError String
  | .path rooted segments => do
    let whole := (Ty.path rooted segments).text
    let base ← table.resolveBase scope whole rooted segments
    let arguments ← table.resolveLastArgs scope whole segments
    return base.text ++ arguments
  | .tuple elems _ => return renderTuple (← table.resolveTys scope elems)
  | .array elem length =>
    return "[" ++ (← table.resolveTy scope elem) ++ "; " ++ Token.printAll length ++ "]"
  | .slice elem => return "[" ++ (← table.resolveTy scope elem) ++ "]"
  | .reference lifetime mutable target => do
    let whole := (Ty.reference lifetime mutable target).text
    let lifetime ← staticLifetime whole lifetime
    return "&" ++ lifetime ++ (if mutable then "mut " else "") ++ (← table.resolveTy scope target)
  | .paren inner => table.resolveTy scope inner
  | .qualified tokens => .error (.unsupported (Token.printAll tokens))
  | .object tokens => .error (.unsupported (Token.printAll tokens))
  | .other tokens => .error (.unsupported (Token.printAll tokens))

/-- The rendered forms of several types. -/
def resolveTys (table : SymbolTable) (scope : ItemPath) :
    List Ty → Except ResolveError (List String)
  | [] => return []
  | t :: ts => return (← table.resolveTy scope t) :: (← table.resolveTys scope ts)

/-- The rendered arguments of the last segment of a path. -/
def resolveLastArgs (table : SymbolTable) (scope : ItemPath) (whole : String) :
    List Segment → Except ResolveError String
  | [] => return ""
  | [.mk _ args] => table.resolveArgs scope whole args
  | _ :: s :: rest => table.resolveLastArgs scope whole (s :: rest)

/-- The rendered arguments of a segment. -/
def resolveArgs (table : SymbolTable) (scope : ItemPath) (whole : String) :
    PathArgs → Except ResolveError String
  | .none => return ""
  | .angled _ args _ =>
    return "<" ++ ", ".intercalate (← table.resolveTyArgs scope whole args) ++ ">"
  | .call _ => .error (.unsupported whole)

/-- The rendered forms of generic arguments. -/
def resolveTyArgs (table : SymbolTable) (scope : ItemPath) (whole : String) :
    List TyArg → Except ResolveError (List String)
  | [] => return []
  | arg :: args =>
    return (← table.resolveTyArg scope whole arg) :: (← table.resolveTyArgs scope whole args)

/-- The rendered form of a generic argument. -/
def resolveTyArg (table : SymbolTable) (scope : ItemPath) (whole : String) :
    TyArg → Except ResolveError String
  | .type type => table.resolveTy scope type
  | .lifetime name => if name = "static" then .ok "'static" else .error (.lifetime whole)
  | .const value => .ok (Token.printAll value)
  | .binding _ => .error (.unsupported whole)

end

end SymbolTable

end ServiceDispatch
