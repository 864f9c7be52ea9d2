import Mathlib.Data.List.Forall2
import ServiceDispatch.Artifact
import ServiceDispatch.Proofs.Feed.Tables
import ServiceDispatch.Proofs.Resolution.Agreement

/-!
# Items for tests only

Modules, structs, enums, imports and `impl` blocks that are for tests only declare nothing, so it
does not matter whether they are there. The attributes of all other items are not looked at: a
union, a type alias or a trait for tests declares its name like any other, and the name may shadow
an import. Deleting items of the former kinds never changes anything, and deleting those of the
latter changes nothing as long as no declared name is lost.
-/

namespace ServiceDispatch

/-! ## Deleting items -/

namespace Item

/-- Whether an item is for tests only, and of a kind whose attributes are looked at. -/
def isForTests : Item → Bool
  | .module decl _ => isTestOnly decl.attributes
  | .type decl => isTestOnly decl.attributes
  | .use attributes _ _ => isTestOnly attributes
  | .impl decl => isTestOnly decl.attributes
  | _ => false

/-- An item for tests only declares nothing, and neither does what stands in it. -/
theorem declarations_of_isForTests {item : Item} (htests : item.isForTests)
    (context : ScanContext) (module : ItemPath) : item.declarations context module = [] := by
  cases item with
  | module decl content =>
    rw [declarations]
    exact if_pos htests
  | type decl =>
    rw [declarations]
    exact if_pos htests
  | use attributes rooted tree =>
    rw [declarations]
    exact if_pos htests
  | impl decl =>
    have hblock : decl.block? module context.dispatcher = none := by
      rw [ImplDecl.block?, if_pos]
      rw [Bool.or_eq_true]
      exact .inr htests
    rw [declarations, hblock]
    rfl
  | name declared => exact absurd htests Bool.false_ne_true
  | function => exact absurd htests Bool.false_ne_true
  | other inner => exact absurd htests Bool.false_ne_true

/-- Whether some items are what is left of others after items have been deleted at any depth: items
for tests only, and unions, aliases, traits, functions and items of other kinds if everything inside
them is deleted as well. -/
inductive Thinned : List Item → List Item → Prop where
  | nil : Thinned [] []
  | keep {item : Item} {items items' : List Item} (hrest : Thinned items items') :
      Thinned (item :: items) (item :: items')
  | forTests {item : Item} {items items' : List Item} (htests : item.isForTests)
      (hrest : Thinned items items') : Thinned (item :: items) items'
  | name {declared : String} {items items' : List Item} (hrest : Thinned items items') :
      Thinned (.name declared :: items) items'
  | function {items items' : List Item} (hrest : Thinned items items') :
      Thinned (.function :: items) items'
  | other {inner items items' : List Item} (hinner : Thinned inner [])
      (hrest : Thinned items items') : Thinned (.other inner :: items) items'
  | inModule {decl : ModuleDecl} {content content' items items' : List Item}
      (hcontent : Thinned content content') (hrest : Thinned items items') :
      Thinned (.module decl (some content) :: items) (.module decl (some content') :: items')
  | inOther {inner inner' items items' : List Item} (hinner : Thinned inner inner')
      (hrest : Thinned items items') : Thinned (.other inner :: items) (.other inner' :: items')

end Item

/-! ## Modules, types, imports and blocks -/

/-- Whether some items are what is left of others after modules, structs, enums, imports and `impl`
blocks for tests only have been deleted at any depth. -/
inductive Item.LosesTests : List Item → List Item → Prop where
  | nil : LosesTests [] []
  | keep {item : Item} {items items' : List Item} (hrest : LosesTests items items') :
      LosesTests (item :: items) (item :: items')
  | forTests {item : Item} {items items' : List Item} (htests : item.isForTests)
      (hrest : LosesTests items items') : LosesTests (item :: items) items'
  | inModule {decl : ModuleDecl} {content content' items items' : List Item}
      (hcontent : LosesTests content content') (hrest : LosesTests items items') :
      LosesTests (.module decl (some content) :: items) (.module decl (some content') :: items')
  | inOther {inner inner' items items' : List Item} (hinner : LosesTests inner inner')
      (hrest : LosesTests items items') : LosesTests (.other inner :: items) (.other inner' :: items')

/-- What is left of such items declares the same, since none of those that are deleted declares
anything. -/
theorem Item.LosesTests.declarationsOfAll_eq {items items' : List Item}
    (hloses : LosesTests items items') (context : ScanContext) (module : ItemPath) :
    declarationsOfAll context module items = declarationsOfAll context module items' := by
  induction hloses generalizing module with
  | nil => rfl
  | keep hrest ih => rw [declarationsOfAll, declarationsOfAll, ih]
  | forTests htests hrest ih =>
    rw [declarationsOfAll, declarations_of_isForTests htests, List.nil_append, ih]
  | @inModule decl content content' items items' hcontent hrest ih ih' =>
    have hinside := ih (module.join decl.name)
    simp only [declarationsOfAll, declarations, ih', hinside]
  | inOther hinner hrest ih ih' =>
    rw [declarationsOfAll, declarationsOfAll, declarations, declarations, ih', ih]

/-- Whether a source is what is left of another one after such items have been deleted. -/
def Source.LosesTests (source source' : Source) : Prop :=
  source.module = source'.module ∧ Item.LosesTests source.items source'.items

/-- Deleting modules, structs, enums, imports and `impl` blocks for tests only changes neither the
candidates nor the symbol table. No name can be lost with them, so there is no condition. -/
theorem Feed.ofSources_eq_of_losesTests (settings : Settings) {sources sources' : List Source}
    (hloses : List.Forall₂ Source.LosesTests sources sources') :
    ofSources settings sources = ofSources settings sources' := by
  have hdeclarations : sources.flatMap (·.declarations (.ofSettings settings)) =
      sources'.flatMap (·.declarations (.ofSettings settings)) := by
    induction hloses with
    | nil => rfl
    | @cons source source' sources sources' hsource hrest ih =>
      obtain ⟨hmodule, hitems⟩ := hsource
      rw [List.flatMap_cons, List.flatMap_cons, ih, Source.declarations, Source.declarations,
        hmodule, hitems.declarationsOfAll_eq]
  rw [ofSources, ofSources, hdeclarations]

/-! ## Items of all kinds -/

namespace Declaration

/-- Whether a declaration is more than a name. -/
def isSubstantial : Declaration → Bool
  | .name _ => false
  | _ => true

/-- Whether some declarations are what is left of others after names have been deleted. -/
structure Loses (declarations declarations' : List Declaration) : Prop where
  sublist : declarations'.Sublist declarations
  substantial : declarations.filter isSubstantial = declarations'.filter isSubstantial

/-- Nothing is lost from declarations to themselves. -/
theorem Loses.refl (declarations : List Declaration) : Loses declarations declarations :=
  ⟨List.Sublist.refl _, rfl⟩

/-- Names are lost in two parts independently. -/
theorem Loses.append {front front' back back' : List Declaration} (hfront : Loses front front')
    (hback : Loses back back') : Loses (front ++ back) (front' ++ back') := by
  refine ⟨hfront.sublist.append hback.sublist, ?_⟩
  rw [List.filter_append, List.filter_append, hfront.substantial, hback.substantial]

end Declaration

open Declaration (Loses)

/-- What is left of some items declares the same, apart from names. -/
theorem Item.Thinned.loses {items items' : List Item} (hthinned : Thinned items items')
    (context : ScanContext) (module : ItemPath) :
    Loses (declarationsOfAll context module items) (declarationsOfAll context module items') := by
  induction hthinned generalizing module with
  | nil => exact .refl _
  | keep hrest ih => exact (Loses.refl _).append (ih module)
  | forTests htests hrest ih =>
    rw [declarationsOfAll, declarations_of_isForTests htests]
    exact ih module
  | name hrest ih =>
    obtain ⟨hsublist, hsubstantial⟩ := ih module
    exact ⟨hsublist.cons _, hsubstantial⟩
  | function hrest ih => exact ih module
  | other hinner hrest ih ih' =>
    rw [declarationsOfAll, declarations]
    exact (ih module).append (ih' module)
  | @inModule decl content content' items items' hcontent hrest ih ih' =>
    rw [declarationsOfAll, declarationsOfAll, declarations, declarations]
    refine Loses.append ?_ (ih' module)
    split
    · exact .refl _
    · exact (Loses.refl [_]).append (ih (module.join decl.name))
  | inOther hinner hrest ih ih' =>
    rw [declarationsOfAll, declarationsOfAll, declarations, declarations]
    exact (ih module).append (ih' module)

/-- Whether a source is what is left of another one. -/
def Source.Thinned (source source' : Source) : Prop :=
  source.module = source'.module ∧ Item.Thinned source.items source'.items

/-- What is left of sources declares the same, apart from names. -/
theorem Source.loses_of_thinned {sources sources' : List Source}
    (hthinned : List.Forall₂ Source.Thinned sources sources') (context : ScanContext) :
    Loses (sources.flatMap (·.declarations context))
      (sources'.flatMap (·.declarations context)) := by
  induction hthinned with
  | nil => exact .refl _
  | @cons source source' sources sources' hsource hrest ih =>
    obtain ⟨hmodule, hitems⟩ := hsource
    rw [List.flatMap_cons, List.flatMap_cons, Source.declarations, Source.declarations, hmodule]
    exact ((Loses.refl _).append (hitems.loses context source'.module)).append ih

/-! ## Tables -/

namespace SymbolTable

/-- Whether two tables have the same modules, imports and external crates. -/
structure SameFrame (table table' : SymbolTable) : Prop where
  modules : table.modules = table'.modules
  imports : table.imports = table'.imports
  externCrates : table.externCrates = table'.externCrates

/-- A declaration keeps the frame the same, if it is added to both tables. -/
theorem SameFrame.declare {table table' : SymbolTable} (h : table.SameFrame table')
    (declaration : Declaration) :
    (table.declare declaration).SameFrame (table'.declare declaration) := by
  obtain ⟨items, modules, imports, externCrates⟩ := table
  obtain ⟨items', modules', imports', externCrates'⟩ := table'
  obtain ⟨hmodules, himports, hexterns⟩ := h
  dsimp only at hmodules himports hexterns
  subst hmodules himports hexterns
  cases declaration <;> exact ⟨rfl, rfl, rfl⟩

/-- Names do not matter for the frame: it stays the same if they are left out of one of the tables.
-/
theorem SameFrame.foldl_filter {table table' : SymbolTable} (h : table.SameFrame table')
    (declarations : List Declaration) :
    (declarations.foldl SymbolTable.declare table).SameFrame
      ((declarations.filter Declaration.isSubstantial).foldl SymbolTable.declare table') := by
  induction declarations generalizing table table' with
  | nil => exact h
  | cons declaration rest ih =>
    cases declaration with
    | name path => exact ih ⟨h.modules, h.imports, h.externCrates⟩
    | _ => exact ih (h.declare _)

/-- Declarations in the table of fewer of them are declared in that of more. -/
theorem hasItem_mono (externCrates : List String) {declarations declarations' : List Declaration}
    (hsublist : declarations'.Sublist declarations) {path : ItemPath}
    (hitem : (ofDeclarations externCrates declarations').hasItem path) :
    (ofDeclarations externCrates declarations).hasItem path := by
  rw [hasItem_ofDeclarations_iff] at hitem ⊢
  obtain ⟨declaration, hmem, hdeclares⟩ := hitem
  exact ⟨declaration, hsublist.subset hmem, hdeclares⟩

/-- Tables agree if only names are lost that are declared all the same. -/
theorem agrees_of_loses (externCrates : List String)
    {declarations declarations' : List Declaration} (hloses : Loses declarations declarations')
    (hnames : ∀ path, (ofDeclarations externCrates declarations).hasItem path →
      (ofDeclarations externCrates declarations').hasItem path) :
    (ofDeclarations externCrates declarations).Agrees
      (ofDeclarations externCrates declarations') := by
  let start : SymbolTable := externCrates.foldl addExternCrate {}
  have hstart : start.SameFrame start := ⟨rfl, rfl, rfl⟩
  have hframe := hstart.foldl_filter declarations
  have hframe' := hstart.foldl_filter declarations'
  rw [hloses.substantial] at hframe
  have hmodules : (ofDeclarations externCrates declarations).modules =
      (ofDeclarations externCrates declarations').modules :=
    hframe.modules.trans hframe'.modules.symm
  have himports : (ofDeclarations externCrates declarations).imports =
      (ofDeclarations externCrates declarations').imports :=
    hframe.imports.trans hframe'.imports.symm
  have hexterns : (ofDeclarations externCrates declarations).externCrates =
      (ofDeclarations externCrates declarations').externCrates :=
    hframe.externCrates.trans hframe'.externCrates.symm
  constructor
  · intro path
    exact Bool.eq_iff_iff.mpr ⟨hnames path, hasItem_mono externCrates hloses.sublist⟩
  · intro path
    rw [scope?, scope?, hmodules]
  · intro module
    rw [importsOf, importsOf, himports]
  · intro name
    rw [hexterns]

end SymbolTable

/-! ## Feeds -/

/-- What is not a name is kept, in its order. -/
theorem Declaration.Loses.filterMap_eq {α : Type} {declarations declarations' : List Declaration}
    (hloses : Loses declarations declarations') (part : Declaration → Option α)
    (hpart : ∀ path, part (.name path) = none) :
    declarations.filterMap part = declarations'.filterMap part := by
  have hsubstantial : part = fun declaration =>
      if declaration.isSubstantial then part declaration else none := by
    funext declaration
    cases declaration with
    | name path => exact hpart path
    | _ => rfl
  rw [hsubstantial, ← List.filterMap_filter, hloses.substantial, List.filterMap_filter]

namespace Feed

/-- What is left of sources has the same candidates, resolves all types alike and gives the same
artifact or error, if no declared name is lost. The condition on names excludes only that the last
item of a name is deleted with its union, alias, trait or other item for tests; such a name may mean
an import or a type of the prelude afterwards. -/
theorem ofSources_thinned (settings : Settings) {sources sources' : List Source}
    (hthinned : List.Forall₂ Source.Thinned sources sources')
    (hnames : ∀ path, (ofSources settings sources).symbols.hasItem path →
      (ofSources settings sources').symbols.hasItem path) :
    (ofSources settings sources).candidates = (ofSources settings sources').candidates ∧
    (∀ scope type, (ofSources settings sources).symbols.resolveTy scope type =
      (ofSources settings sources').symbols.resolveTy scope type) ∧
    Artifact.ofFeed settings (ofSources settings sources) =
      Artifact.ofFeed settings (ofSources settings sources') := by
  have hloses := Source.loses_of_thinned hthinned (.ofSettings settings)
  have hagrees := SymbolTable.agrees_of_loses settings.externCrates hloses hnames
  have htypes := hloses.filterMap_eq Declaration.type? fun _ => rfl
  have himpls := hloses.filterMap_eq Declaration.impl? fun _ => rfl
  have hcandidates :
      (ofSources settings sources).candidates = (ofSources settings sources').candidates := by
    simp only [ofSources, ofDeclarations, htypes, himpls]
    refine List.map_congr_left fun type _ => ?_
    simp only [candidate, implementations, hagrees.isReachable_eq, hagrees.resolveItem?_eq]
  refine ⟨hcandidates, fun scope type => hagrees.resolveTy_eq scope type, ?_⟩
  rw [Artifact.ofFeed, Artifact.ofFeed, hcandidates]
  exact congrArg (Artifact.ofCandidates · settings _) hagrees.resolver_eq

/-! ## A type alias for tests -/

/-- A module with a type alias, of which there is one for tests and another one otherwise, and with
a module of tests. -/
def aliasForTests : List Source := [⟨⟨"crate::acc"⟩, [
  .name "UserId",
  .name "UserId",
  .module ⟨[⟨false, ["cfg"], .list [.ident "test"]⟩], .inherited, "tests", by decide⟩
    (some [.use [] false (.path "super" .glob)])]⟩]

/-- The same module without what is for tests. -/
def aliasWithoutTests : List Source := [⟨⟨"crate::acc"⟩, [.name "UserId"]⟩]

/-- The alias for tests can be deleted together with the tests, since another one has its name. -/
theorem ofFeed_aliasForTests :
    List.Forall₂ Source.Thinned aliasForTests aliasWithoutTests ∧
      (∀ path, (ofSources {} aliasForTests).symbols.hasItem path →
        (ofSources {} aliasWithoutTests).symbols.hasItem path) ∧
      Artifact.ofFeed {} (ofSources {} aliasForTests) =
        Artifact.ofFeed {} (ofSources {} aliasWithoutTests) := by
  have hthinned : List.Forall₂ Source.Thinned aliasForTests aliasWithoutTests :=
    .cons ⟨rfl, .name (.keep (.forTests (by decide) .nil))⟩ .nil
  have hnames : ∀ path, (ofSources {} aliasForTests).symbols.hasItem path →
      (ofSources {} aliasWithoutTests).symbols.hasItem path := by
    have hitems : (ofSources {} aliasForTests).symbols.items =
        [⟨"crate::acc::UserId"⟩, ⟨"crate::acc::UserId"⟩] := by decide +kernel
    have hitems' : (ofSources {} aliasWithoutTests).symbols.items = [⟨"crate::acc::UserId"⟩] := by
      decide +kernel
    intro path hpath
    rw [SymbolTable.hasItem, hitems, List.contains_iff_mem] at hpath
    rw [SymbolTable.hasItem, hitems', List.contains_iff_mem]
    simpa using hpath
  exact ⟨hthinned, hnames, (ofSources_thinned {} hthinned hnames).2.2⟩

/-- What a type means that is written in a module, in a crate that is given by the texts of its
modules. -/
def resolvedIn? (texts : List (ItemPath × String)) (scope : ItemPath) (written : String) :
    Option String :=
  (texts.mapM fun (module, text) => Source.ofText? module text).bind fun sources =>
    (Resolver.ofTable (ofSources {} sources).symbols ⟨written, written, .value, scope⟩).toOption

/-- A module that imports a type, with further text. -/
def importedType (further : String) : List (ItemPath × String) := [
  (⟨"crate::ids"⟩, "pub struct UserId(pub u64);\n"),
  (⟨"crate::acc"⟩, "use super::ids::*;\n" ++ further)]

/-- A type alias for tests shadows the import. Without it the imported type is meant. -/
theorem resolvedIn?_aliasForTests :
    resolvedIn? (importedType "#[cfg(test)]\ntype UserId = u8;\n") ⟨"crate::acc"⟩ "UserId" =
        some "crate::acc::UserId" ∧
      resolvedIn? (importedType "") ⟨"crate::acc"⟩ "UserId" = some "crate::ids::UserId" := by
  decide +kernel

end Feed

end ServiceDispatch
