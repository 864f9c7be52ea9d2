import ServiceDispatch.Declaration
import ServiceDispatch.Resolver

/-!
# Feeds

All candidates of a crate, in the order of its sources, together with the symbol table in which
their types are resolved.
-/

namespace ServiceDispatch

/-- A source: the items of a module. -/
structure Source where
  module : ItemPath
  items : List Item

namespace Source

/-- The source with the given text. -/
def ofText? (module : ItemPath) (text : String) : Option Source :=
  (Item.ofFile? text).map (⟨module, ·⟩)

/-- What a source declares: its module with all modules around it, visible everywhere, and its
items. -/
def declarations (source : Source) (context : ScanContext) : List Declaration :=
  (source.module.ancestors ++ [source.module]).map (Declaration.module · .root) ++
    Item.declarationsOfAll context source.module source.items

end Source

namespace Declaration

/-- A declaration as a type. -/
def type? : Declaration → Option DeclaredType
  | .type declared => some declared
  | _ => none

/-- A declaration as an `impl` block. -/
def impl? : Declaration → Option ImplBlock
  | .impl block => some block
  | _ => none

end Declaration

namespace SymbolTable

/-- Take over a declaration. -/
def declare (table : SymbolTable) : Declaration → SymbolTable
  | .module path visibleIn => table.declareModule path visibleIn
  | .type declared => table.declareItem declared.path
  | .name path => table.declareItem path
  | .binding module binding => table.addImport module binding
  | .impl _ => table

/-- The table of some declarations, with further external crates. -/
def ofDeclarations (externCrates : List String) (declarations : List Declaration) : SymbolTable :=
  declarations.foldl declare (externCrates.foldl addExternCrate {})

end SymbolTable

/-- The constructors of one `impl` block, with the type they belong to. -/
structure Implementation where
  target : ItemPath
  constructors : List Constructor

/-- The candidates of a crate and its symbol table. -/
structure Feed where
  candidates : List Candidate
  symbols : SymbolTable

namespace Feed

/-- The blocks whose type is known. -/
def implementations (symbols : SymbolTable) (blocks : List ImplBlock) : List Implementation :=
  blocks.filterMap fun block =>
    (symbols.resolveItem? block.scope block.selfType).map (⟨·, block.constructors⟩)

/-- A declared type as a candidate. -/
def candidate (symbols : SymbolTable) (implementations : List Implementation)
    (dispatcher : ItemPath) (type : DeclaredType) : Candidate where
  name := type.path
  isAbstract := type.isAbstract
  isPrivate := !symbols.isReachable type.path type.visibleIn dispatcher
  markers := type.markers
  constructors := (implementations.filter (·.target == type.path)).flatMap (·.constructors)

/-- The feed of some declarations. -/
def ofDeclarations (settings : Settings) (declarations : List Declaration) : Feed :=
  let symbols := SymbolTable.ofDeclarations settings.externCrates declarations
  let implementations := implementations symbols (declarations.filterMap Declaration.impl?)
  let dispatcher := (ScanContext.ofSettings settings).dispatcher
  ⟨(declarations.filterMap Declaration.type?).map (candidate symbols implementations dispatcher),
    symbols⟩

/-- The feed of some sources. -/
def ofSources (settings : Settings) (sources : List Source) : Feed :=
  ofDeclarations settings (sources.flatMap (·.declarations (.ofSettings settings)))

end Feed

end ServiceDispatch
