import ServiceDispatch.SymbolTable

/-!
# Looking up names

A name in a module means a declared item or child module, else a named import, else a member
of a glob import. Imports may lead to further imports; the lookup gives up after a fixed number
of such steps.
-/

namespace ServiceDispatch

/-- A way to look up a name in a module. -/
abbrev Finder := ItemPath → String → Option ItemPath

namespace UsePath

/-- What a path step leads to: a member of a crate module, or a longer external path. -/
def step (find : Finder) (base : ItemPath) (segment : String) : Option ItemPath :=
  if base.isCrateLocal then find base segment else some (base.join segment)

/-- Go up once for each `super` at the front. -/
def ascend : ItemPath → List String → Option (ItemPath × List String)
  | base, "super" :: rest => base.parent?.bind (ascend · rest)
  | base, rest => some (base, rest)

/-- What an import path in a module leads to. A first name that is not known is the name of an
external crate. -/
def target? (find : Finder) (module : ItemPath) (path : UsePath) : Option ItemPath :=
  let relative := fun (base : ItemPath) (rest : List String) => do
    let (base, rest) ← ascend base rest
    rest.foldlM (step find) base
  if path.rooted then some (.external path.segments)
  else
    match path.segments with
    | [] => none
    | "crate" :: rest => relative .root rest
    | "self" :: rest => relative module rest
    | "super" :: rest => module.parent?.bind (relative · rest)
    | first :: rest =>
      match find module first with
      | some base => relative base rest
      | none => some (.external path.segments)

end UsePath

namespace Import

/-- The path of a named import with the given name. -/
def pathOf? (name : String) : Import → Option UsePath
  | .named bound path => if bound = name then some path else none
  | .glob _ => none

end Import

namespace SymbolTable

/-- What a glob import offers under a name. -/
def globMember? (find follow : Finder) (module : ItemPath) (name : String) :
    Import → Option ItemPath
  | .glob path => do
    let target ← path.target? find module
    if target.isCrateLocal then follow target name else none
  | .named _ _ => none

/-- Look up a name, given how to look up names in import paths and in glob targets. -/
def lookupBy (table : SymbolTable) (find follow : Finder) : Finder := fun module name =>
  let direct := module.join name
  if table.hasItem direct || table.hasModule direct then some direct
  else
    let imports := table.importsOf module
    match imports.findSome? (Import.pathOf? name) with
    | some path => path.target? find module
    | none => imports.findSome? (globMember? find follow module name)

/-- Look up a name within a number of steps. Each name in an import path takes two steps, and a
glob target takes one. -/
def lookupWithin (table : SymbolTable) : Nat → Finder
  | 0 => fun _ _ => none
  | 1 => table.lookupBy (fun _ _ => none) (fun _ _ => none)
  | n + 2 => table.lookupBy (table.lookupWithin n) (table.lookupWithin (n + 1))

/-- The number of steps after which a lookup gives up. -/
def maxSteps : Nat := 17

/-- Look up a name. -/
def lookup (table : SymbolTable) : Finder := table.lookupWithin maxSteps

end SymbolTable

end ServiceDispatch
