import ServiceDispatch.Parameter
import ServiceDispatch.SymbolTable.Resolve

/-!
# Resolvers

A resolver renders the type of a parameter. A symbol table is one, and so is a fixed list of
types.
-/

namespace ServiceDispatch

/-- A way to render the type of a parameter. -/
abbrev Resolver := Parameter → Except ResolveError String

namespace Resolver

/-- Resolve by what a crate declares. -/
def ofTable (table : SymbolTable) : Resolver := fun parameter =>
  match Ty.ofText? parameter.target with
  | some type => table.resolveTy parameter.scope type
  | none => .error (.malformed parameter.target)

/-- Resolve by a list of types with their rendered forms. -/
def ofList (types : List (String × String)) : Resolver := fun parameter =>
  match types.lookup parameter.target with
  | some rendered => .ok rendered
  | none => .error (.unknownName parameter.target)

end Resolver

end ServiceDispatch
