import ServiceDispatch.ItemPath

/-!
# Symbol tables

What a crate declares: its items, its modules with the module that each is visible within, the
imports of each module, and the external crates that may be named.
-/

namespace ServiceDispatch

/-- A path in an import, as written. -/
structure UsePath where
  /-- Whether it starts with `::`. -/
  rooted : Bool
  segments : List String
deriving DecidableEq, Repr, Inhabited

/-- One binding of an import. -/
inductive Import where
  /-- A path under a name. -/
  | named (name : String) (path : UsePath)
  /-- All members of a path. -/
  | glob (path : UsePath)
deriving DecidableEq, Repr, Inhabited

/-- A module with the module that it is visible within. -/
structure ModuleScope where
  path : ItemPath
  visibleIn : ItemPath
deriving DecidableEq, Repr, Inhabited

/-- An import with the module in which it stands. -/
structure ModuleImport where
  module : ItemPath
  binding : Import
deriving DecidableEq, Repr, Inhabited

/-- What a crate declares. -/
structure SymbolTable where
  items : List ItemPath := []
  modules : List ModuleScope := [⟨.root, .root⟩]
  imports : List ModuleImport := []
  externCrates : List String := ["std", "core", "alloc"]
deriving Repr, Inhabited

namespace SymbolTable

/-- Whether a path is a declared item. -/
def hasItem (table : SymbolTable) (path : ItemPath) : Bool := table.items.contains path

/-- The module that a declared module is visible within. -/
def scope? (table : SymbolTable) (path : ItemPath) : Option ItemPath :=
  (table.modules.find? (·.path == path)).map (·.visibleIn)

/-- Whether a path is a declared module. -/
def hasModule (table : SymbolTable) (path : ItemPath) : Bool := (table.scope? path).isSome

/-- The imports of a module, in their order. -/
def importsOf (table : SymbolTable) (module : ItemPath) : List Import :=
  (table.imports.filter (·.module == module)).map (·.binding)

/-- Declare an item. -/
def declareItem (table : SymbolTable) (path : ItemPath) : SymbolTable :=
  { table with items := table.items ++ [path] }

/-- Declare a module. A module that is declared more than once keeps the narrowest scope. -/
def declareModule (table : SymbolTable) (path visibleIn : ItemPath) : SymbolTable :=
  let known := (table.scope? path).getD .root
  let narrower := if visibleIn.depth > known.depth then visibleIn else known
  let modules := if table.hasModule path then
      table.modules.map fun m => if m.path == path then { m with visibleIn := narrower } else m
    else table.modules ++ [⟨path, narrower⟩]
  { table with modules }

/-- Add an import to a module. -/
def addImport (table : SymbolTable) (module : ItemPath) (binding : Import) : SymbolTable :=
  { table with imports := table.imports ++ [⟨module, binding⟩] }

/-- Add the name of an external crate. -/
def addExternCrate (table : SymbolTable) (name : String) : SymbolTable :=
  { table with externCrates := table.externCrates ++ [name] }

/-- Whether code in a module can name an item by its full path: the item's own scope and the
scope of each module on its path have to contain the code. -/
def isReachable (table : SymbolTable) (item visibleIn source : ItemPath) : Bool :=
  source.isUnder visibleIn &&
    item.ancestors.all fun module => (table.scope? module).all source.isUnder

end SymbolTable

end ServiceDispatch
