import ServiceDispatch.ItemPath
import ServiceDispatch.Source.Ty

/-!
# Items as written

The items of a source file, with what the scan looks at: modules with their contents, struct
and enum declarations, names declared by other items, imports, and `impl` blocks with their
functions. Items that stand inside the types and expressions of other items are kept with
them.
-/

namespace ServiceDispatch

/-- The arguments of an attribute. -/
inductive AttributeArgs where
  | none
  /-- Tokens in brackets, as written. -/
  | list (tokens : List Token)
  /-- The printed expression after an equals sign. -/
  | value (tokens : List Token)
deriving Repr, Inhabited

/-- An attribute: a path and its arguments. -/
structure Attribute where
  rooted : Bool
  path : List String
  args : AttributeArgs
deriving Repr, Inhabited

/-- Who may name an item. -/
inductive Visibility where
  | inherited
  | everyone
  /-- Restricted to a module, given by the names of its path. -/
  | within (path : List String)
deriving DecidableEq, Repr, Inhabited

/-- The tree of an import. -/
inductive UseTree where
  | path (name : String) (tree : UseTree)
  | name (name : String)
  | rename (name bound : String)
  | glob
  | group (trees : List UseTree)
deriving Repr, Inhabited

/-- A function of an `impl` block. -/
structure MethodDecl where
  attributes : List Attribute
  visibility : Visibility
  name : String
  isAsync : Bool
  isUnsafe : Bool
  hasReceiver : Bool
  isGeneric : Bool
  /-- The types of the parameters other than the receiver. -/
  params : List Ty
  result : Option Ty

/-- An `impl` block. -/
structure ImplDecl where
  attributes : List Attribute
  hasTrait : Bool
  isGeneric : Bool
  selfType : Ty
  methods : List MethodDecl

/-- The kinds of types that may be services. -/
inductive TypeKind where
  | struct
  | enum
deriving DecidableEq, Repr, Inhabited

/-- A struct or enum declaration. -/
structure TypeDecl where
  kind : TypeKind
  attributes : List Attribute
  visibility : Visibility
  name : String
  isSegment : IsSegment name
  isGeneric : Bool

/-- The head of a module declaration. -/
structure ModuleDecl where
  attributes : List Attribute
  visibility : Visibility
  name : String
  isSegment : IsSegment name

/-- An item of a source file. -/
inductive Item where
  /-- A module; without content it stands for a file. -/
  | module (decl : ModuleDecl) (content : Option (List Item))
  | type (decl : TypeDecl)
  /-- A union, type alias or trait, of which only the name matters. -/
  | name (name : String)
  | use (attributes : List Attribute) (rooted : Bool) (tree : UseTree)
  | impl (decl : ImplDecl)
  | function
  /-- Any other item, with the items inside its types and expressions. -/
  | other (inner : List Item)

instance : Inhabited Item := ⟨.function⟩

end ServiceDispatch
