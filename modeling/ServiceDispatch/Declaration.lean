import ServiceDispatch.Candidate
import ServiceDispatch.CfgPredicate
import ServiceDispatch.Settings
import ServiceDispatch.SymbolTable

/-!
# Declarations

What the items of a module declare, as a list in source order: modules, types, other names,
imports, and `impl` blocks with their constructors. Items that are compiled for tests only
declare nothing.
-/

namespace ServiceDispatch

/-- A declared struct or enum. -/
structure DeclaredType where
  path : ItemPath
  visibleIn : ItemPath
  isAbstract : Bool
  markers : List Marker
deriving Repr, Inhabited

/-- An `impl` block without generic parameters, with its constructors. -/
structure ImplBlock where
  scope : ItemPath
  selfType : Ty
  constructors : List Constructor

/-- What an item declares. -/
inductive Declaration where
  | module (path visibleIn : ItemPath)
  | type (type : DeclaredType)
  /-- A name of which nothing else matters. -/
  | name (path : ItemPath)
  | binding (module : ItemPath) (binding : Import)
  | impl (block : ImplBlock)

namespace Visibility

/-- One name of the path of a restricted visibility. -/
def step (scope : ItemPath) (name : String) : ItemPath :=
  if name = "super" then scope.parentOrRoot else scope.join name

/-- The module within which an item of a module is visible. -/
def scope (visibility : Visibility) (module : ItemPath) : ItemPath :=
  match visibility with
  | .everyone => .root
  | .inherited => module
  | .within [] => .root
  | .within (first :: rest) =>
    let start := match first with
      | "self" => module
      | "super" => module.parentOrRoot
      | _ => .root
    rest.foldl step start

end Visibility

namespace UseTree

mutual

/-- The bindings of an import tree below some names. A name that stands for the names before it,
and one that is not bound, add nothing to the path. -/
def bindings (rooted : Bool) (front : List String) : UseTree → List Import
  | .path first tree => tree.bindings rooted (front ++ [first])
  | .name "self" =>
    match front.getLast? with
    | some last => [.named last ⟨rooted, front⟩]
    | none => []
  | .name leaf => [.named leaf ⟨rooted, front ++ [leaf]⟩]
  | .rename _ "_" => []
  | .rename "self" bound => [.named bound ⟨rooted, front⟩]
  | .rename leaf bound => [.named bound ⟨rooted, front ++ [leaf]⟩]
  | .glob => [.glob ⟨rooted, front⟩]
  | .group trees => bindingsOfAll rooted front trees

/-- The bindings of several import trees. -/
def bindingsOfAll (rooted : Bool) (front : List String) : List UseTree → List Import
  | [] => []
  | tree :: trees => tree.bindings rooted front ++ bindingsOfAll rooted front trees

end

end UseTree

/-! ## Constructors -/

namespace Ty

/-- The last name of a path. -/
def terminal? : Ty → Option String
  | .path _ segments => segments.getLast?.map Segment.name
  | _ => none

/-- Whether a type is a path that ends in `Self` or a given name, without arguments. -/
def isNamed (terminal : String) : Ty → Bool
  | .path _ segments =>
    match segments.getLast? with
    | some last => last.args.isEmpty && (last.name == "Self" || last.name == terminal)
    | none => false
  | _ => false

end Ty

namespace MethodDecl

/-- Whether a function constructs a type with the given name and can be called by the generated
function. -/
def isConstructor (method : MethodDecl) (terminal : String) (scope dispatcher : ItemPath) : Bool :=
  dispatcher.isUnder (method.visibility.scope scope) && !isTestOnly method.attributes &&
    !method.isAsync && !method.isUnsafe && !method.hasReceiver && !method.isGeneric &&
    method.result.any (Ty.isNamed terminal)

/-- A function as a constructor in a module. -/
def constructor (method : MethodDecl) (scope : ItemPath) : Constructor :=
  ⟨method.name, method.params.map (Parameter.ofTy · scope)⟩

end MethodDecl

namespace ImplDecl

/-- The block of an `impl` that may construct services: it has no trait and no parameters. -/
def block? (decl : ImplDecl) (scope dispatcher : ItemPath) : Option ImplBlock :=
  if decl.hasTrait || decl.isGeneric || isTestOnly decl.attributes then none
  else
    decl.selfType.terminal?.map fun terminal =>
      let constructors := decl.methods.filter (·.isConstructor terminal scope dispatcher)
      ⟨scope, decl.selfType, constructors.map (·.constructor scope)⟩

end ImplDecl

/-! ## Items -/

/-- What the scan of items depends on. -/
structure ScanContext where
  /-- How the name of a marker begins. -/
  markerStart : String
  /-- The module that will contain the generated function. -/
  dispatcher : ItemPath

namespace ScanContext

/-- The context of a pass with some settings. -/
def ofSettings (settings : Settings) : ScanContext :=
  ⟨settings.markerPrefix, settings.dispatcher⟩

end ScanContext

namespace TypeDecl

/-- A type as a member of a module. -/
def declared (decl : TypeDecl) (context : ScanContext) (module : ItemPath) : DeclaredType :=
  ⟨module.join decl.name, decl.visibility.scope module, decl.isGeneric,
    Marker.ofAttributes context.markerStart decl.attributes⟩

end TypeDecl

mutual

/-- What an item of a module declares. -/
def Item.declarations (context : ScanContext) (module : ItemPath) : Item → List Declaration
  | .module decl content =>
    if isTestOnly decl.attributes then []
    else
      let path := module.join decl.name
      .module path (decl.visibility.scope module) ::
        match content with
        | some items => Item.declarationsOfAll context path items
        | none => []
  | .type decl =>
    if isTestOnly decl.attributes then [] else [.type (decl.declared context module)]
  | .name declared => [.name (module.join declared)]
  | .use attributes rooted tree =>
    if isTestOnly attributes then []
    else (tree.bindings rooted []).map (Declaration.binding module)
  | .impl decl => (decl.block? module context.dispatcher).toList.map Declaration.impl
  | .function => []
  | .other inner => Item.declarationsOfAll context module inner

/-- What the items of a module declare. -/
def Item.declarationsOfAll (context : ScanContext) (module : ItemPath) :
    List Item → List Declaration
  | [] => []
  | item :: items =>
    item.declarations context module ++ Item.declarationsOfAll context module items

end

end ServiceDispatch
