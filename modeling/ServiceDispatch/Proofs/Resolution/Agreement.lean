import ServiceDispatch.Proofs.Resolution.ResolvedTy

/-!
# Tables that agree

A symbol table is asked for its items, for the scopes of its modules, for the imports of a module
and for its external crates. Two tables that answer these questions alike resolve every type alike
and judge alike who can name an item. For types it is enough that names mean the same.
-/

namespace ServiceDispatch.SymbolTable

/-- Whether names mean the same in two tables that have the same items and external crates. -/
structure SameNames (table table' : SymbolTable) : Prop where
  items : ∀ path, table.hasItem path = table'.hasItem path
  lookup : table.lookup = table'.lookup
  externCrates : ∀ name, table.externCrates.contains name = table'.externCrates.contains name

namespace SameNames

variable {table table' : SymbolTable}

/-- Paths of plain names mean the same, however names are looked up: all that a path asks of a table
besides is its external crates. -/
theorem resolveNamesBy_eq (h : table.SameNames table') (find : Finder) :
    table.resolveNamesBy find = table'.resolveNamesBy find := by
  funext scope rooted names
  unfold resolveNamesBy
  simp only [h.externCrates]

/-- Paths of plain names mean the same, as names are looked up alike. -/
theorem resolveNames_eq (h : table.SameNames table') :
    table.resolveNames = table'.resolveNames := by
  rw [resolveNames, resolveNames, h.lookup, h.resolveNamesBy_eq]

/-- Types are the same items, or are items in neither of the two tables. -/
theorem resolveItem?_eq (h : table.SameNames table') :
    table.resolveItem? = table'.resolveItem? := by
  rw [resolveItem?, resolveItem?, h.lookup]
  funext scope type
  cases type with
  | path rooted segments =>
    rw [resolveItemBy?, resolveItemBy?, h.resolveNamesBy_eq]
    simp only [h.items]
  | _ => rfl

/-- Paths in types mean the same, with the same errors for those that mean nothing. -/
theorem resolveBase_eq (h : table.SameNames table') : table.resolveBase = table'.resolveBase := by
  funext scope whole rooted segments
  simp only [resolveBase, h.resolveNames_eq, h.items]

/-- Types render alike, or fail with the same error. The induction is that of types, and goes
through all parts that a type is made of. -/
theorem resolveTy_eq (h : table.SameNames table') (scope : ItemPath) (type : Ty) :
    table.resolveTy scope type = table'.resolveTy scope type := by
  rw [SymbolTable.resolveTy_eq, SymbolTable.resolveTy_eq, h.resolveBase_eq]

/-- Parameters resolve alike, each in the module that it is written in. -/
theorem resolver_eq (h : table.SameNames table') : Resolver.ofTable table = .ofTable table' := by
  funext parameter
  simp only [Resolver.ofTable, h.resolveTy_eq]

end SameNames

/-- Whether two tables give the same answers about what is declared. -/
structure Agrees (table table' : SymbolTable) : Prop where
  items : ∀ path, table.hasItem path = table'.hasItem path
  scopes : ∀ path, table.scope? path = table'.scope? path
  imports : ∀ module, table.importsOf module = table'.importsOf module
  externCrates : ∀ name, table.externCrates.contains name = table'.externCrates.contains name

namespace Agrees

variable {table table' : SymbolTable}

/-- The same modules are declared, though they may stand in another order. -/
theorem hasModule_eq (h : table.Agrees table') (path : ItemPath) :
    table.hasModule path = table'.hasModule path := by
  rw [hasModule, hasModule, h.scopes path]

/-- A step of a lookup leads to the same answers, whatever the steps behind it find. -/
theorem lookupBy_eq (h : table.Agrees table') (find follow : Finder) :
    table.lookupBy find follow = table'.lookupBy find follow := by
  funext module name
  simp only [lookupBy, h.items, h.hasModule_eq, h.imports]

/-- Names mean the same within any number of steps, by induction on this number. -/
theorem lookupWithin_eq (h : table.Agrees table') (n : Nat) :
    table.lookupWithin n = table'.lookupWithin n := by
  induction n using Nat.strongRecOn with
  | ind n ih =>
    match n with
    | 0 => rfl
    | 1 => exact h.lookupBy_eq _ _
    | n + 2 =>
      rw [lookupWithin, lookupWithin, ih n (by omega), ih (n + 1) (by omega), h.lookupBy_eq]

/-- Names mean the same, as agreeing tables differ in order only. -/
theorem sameNames (h : table.Agrees table') : table.SameNames table' :=
  ⟨h.items, h.lookupWithin_eq maxSteps, h.externCrates⟩

/-- Types are the same items in agreeing tables, or are items in neither. -/
theorem resolveItem?_eq (h : table.Agrees table') : table.resolveItem? = table'.resolveItem? :=
  h.sameNames.resolveItem?_eq

/-- Types render alike in agreeing tables, or fail with the same error. -/
theorem resolveTy_eq (h : table.Agrees table') (scope : ItemPath) (type : Ty) :
    table.resolveTy scope type = table'.resolveTy scope type :=
  h.sameNames.resolveTy_eq scope type

/-- Parameters resolve alike in agreeing tables, each in the module that it is written in. -/
theorem resolver_eq (h : table.Agrees table') : Resolver.ofTable table = .ofTable table' :=
  h.sameNames.resolver_eq

/-- The same code can name an item, as each module has the same scope. -/
theorem isReachable_eq (h : table.Agrees table') (item visibleIn source : ItemPath) :
    table.isReachable item visibleIn source = table'.isReachable item visibleIn source := by
  simp only [isReachable, h.scopes]

end Agrees

end ServiceDispatch.SymbolTable
