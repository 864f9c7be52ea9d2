import Mathlib.Data.List.Forall2
import ServiceDispatch.Proofs.Feed.Elsewhere
import ServiceDispatch.Proofs.Feed.Privacy
import ServiceDispatch.Proofs.Resolution.Agreement

/-!
# Sources in another order

The scope of a module and the list of its imports are the only parts of a symbol table that could
depend on the order of the declarations. The scope is the narrowest of those declared, and the
imports of a module keep their order as long as all of them stand in one source. Sources in another
order then have the same candidates, apart from their order and the order of `impl` blocks.
-/

namespace ServiceDispatch

namespace ItemPath

/-- Two paths of the crate that are under each other are the same. -/
theorem InCrate.eq_of_isUnder {p q : ItemPath} (hp : p.InCrate) (hq : q.InCrate)
    (hpq : p.isUnder q) (hqp : q.isUnder p) : p = q := by
  refine hp.eq_of_segments hq ?_
  have hprefix := isUnder_iff.mp hqp
  exact hprefix.eq_of_length_le (isUnder_iff.mp hpq).length_le

end ItemPath

/-! ## Declarations in another order -/

namespace SymbolTable

/-- Declarations do not change the external crates, which come from the settings. -/
theorem externCrates_foldl_declare (declarations : List Declaration) (table : SymbolTable) :
    (declarations.foldl declare table).externCrates = table.externCrates := by
  induction declarations generalizing table with
  | nil => rfl
  | cons declaration rest ih =>
    rw [List.foldl_cons, ih]
    cases declaration <;> rfl

/-- Declarations keep scopes above their modules: every scope in the table is one that its module is
under. -/
theorem scopesAbove_ofDeclarations (externCrates : List String) {declarations : List Declaration}
    (hdeclarations : ∀ declaration ∈ declarations, declaration.ScopedAbove) :
    (ofDeclarations externCrates declarations).ScopesAbove := by
  suffices hfold : ∀ table : SymbolTable, table.ScopesAbove →
      (declarations.foldl declare table).ScopesAbove from
    hfold _ (scopesAbove_externCrates externCrates)
  induction declarations with
  | nil => exact fun table htable => htable
  | cons declaration rest ih =>
    obtain ⟨hfirst, hrest⟩ := List.forall_mem_cons.mp hdeclarations
    exact fun table htable => ih hrest _ (htable.declare hfirst)

/-- The imports of a module are those declared for it, in their order. -/
theorem importsOf_ofDeclarations (externCrates : List String) (declarations : List Declaration)
    (module : ItemPath) :
    (ofDeclarations externCrates declarations).importsOf module =
      ((declarations.filterMap importOf?).filter (·.module == module)).map (·.binding) := by
  rw [importsOf, ofDeclarations, imports_foldl_declare, (foldl_addExternCrate externCrates {}).2,
    List.nil_append]

/-- A scope in the table of some declarations is under the one in the table of the same declarations
in another order. The other scope is declared, and a table confines the module to every declared
scope. -/
theorem isUnder_scope?_of_perm (externCrates : List String)
    {declarations declarations' : List Declaration}
    (hperm : declarations.Perm declarations')
    (hdeclarations : ∀ declaration ∈ declarations, declaration.ScopedAbove)
    {path scope scope' : ItemPath}
    (hscope : (ofDeclarations externCrates declarations).scope? path = some scope)
    (hscope' : (ofDeclarations externCrates declarations').scope? path = some scope') :
    scope.isUnder scope' := by
  rcases eq_root_or_mem_of_scope? hscope' with rfl | hmem
  · exact (scopesAbove_ofDeclarations externCrates hdeclarations path scope hscope).2.1.isUnder_root
  · obtain ⟨narrow, hnarrow, hunder⟩ :=
      confines_ofDeclarations externCrates hdeclarations (hperm.mem_iff.mpr hmem)
    rw [hscope] at hnarrow
    rwa [Option.some.inj hnarrow]

/-- The scopes of modules do not depend on the order of the declarations. -/
theorem scope?_eq_of_perm (externCrates : List String)
    {declarations declarations' : List Declaration}
    (hperm : declarations.Perm declarations')
    (hdeclarations : ∀ declaration ∈ declarations, declaration.ScopedAbove) (path : ItemPath) :
    (ofDeclarations externCrates declarations).scope? path =
      (ofDeclarations externCrates declarations').scope? path := by
  have hdeclarations' : ∀ declaration ∈ declarations', declaration.ScopedAbove :=
    fun declaration hmem => hdeclarations declaration (hperm.mem_iff.mpr hmem)
  have hdeclared : (ofDeclarations externCrates declarations).hasModule path ↔
      (ofDeclarations externCrates declarations').hasModule path := by
    simp only [hasModule_ofDeclarations_iff, hperm.mem_iff]
  rw [hasModule, hasModule] at hdeclared
  cases hscope : (ofDeclarations externCrates declarations).scope? path with
  | none =>
    rw [hscope] at hdeclared
    cases hscope' : (ofDeclarations externCrates declarations').scope? path with
    | none => rfl
    | some scope' =>
      rw [hscope'] at hdeclared
      cases hdeclared.mpr rfl
  | some scope =>
    rw [hscope] at hdeclared
    obtain ⟨scope', hscope'⟩ := Option.isSome_iff_exists.mp (hdeclared.mp rfl)
    have habove := (scopesAbove_ofDeclarations externCrates hdeclarations path scope hscope).2.1
    have habove' :=
      (scopesAbove_ofDeclarations externCrates hdeclarations' path scope' hscope').2.1
    have hunder := isUnder_scope?_of_perm externCrates hperm hdeclarations hscope hscope'
    have hunder' := isUnder_scope?_of_perm externCrates hperm.symm hdeclarations' hscope' hscope
    rw [hscope', habove.eq_of_isUnder habove' hunder hunder']

/-- The tables of the same declarations in two orders agree if each module has its imports in the
same order. -/
theorem agrees_of_perm (externCrates : List String)
    {declarations declarations' : List Declaration}
    (hperm : declarations.Perm declarations')
    (hdeclarations : ∀ declaration ∈ declarations, declaration.ScopedAbove)
    (himports : ∀ module, (ofDeclarations externCrates declarations).importsOf module =
      (ofDeclarations externCrates declarations').importsOf module) :
    (ofDeclarations externCrates declarations).Agrees
      (ofDeclarations externCrates declarations') where
  items := by
    intro path
    rw [Bool.eq_iff_iff, hasItem_ofDeclarations_iff, hasItem_ofDeclarations_iff]
    simp only [hperm.mem_iff]
  scopes := scope?_eq_of_perm externCrates hperm hdeclarations
  imports := himports
  externCrates := by
    intro name
    rw [ofDeclarations, ofDeclarations, externCrates_foldl_declare, externCrates_foldl_declare]

end SymbolTable

/-! ## Imports of sources -/

/-- An import is declared for the module in which its item stands. -/
theorem Item.place_of_binding_mem_ownDeclarations {context : ScanContext} {place module : ItemPath}
    {binding : Import} {item : Item}
    (hown : .binding module binding ∈ item.ownDeclarations context place) : module = place := by
  obtain ⟨attributes, rooted, tree, rfl, -⟩ := of_binding_mem_ownDeclarations hown
  rw [ownDeclarations, declarations] at hown
  · split at hown
    · exact absurd hown List.not_mem_nil
    · obtain ⟨other, -, heq⟩ := List.mem_map.mp hown
      exact (Declaration.binding.inj heq).1.symm
  all_goals exact nofun

/-- Lists of which only one is not empty are joined alike in every order. -/
theorem flatMap_eq_of_perm {α β : Type} {f : α → List β} {xs ys : List α} (hperm : xs.Perm ys)
    (hone : xs.Pairwise fun x y => f x = [] ∨ f y = []) : xs.flatMap f = ys.flatMap f := by
  induction hperm with
  | nil => rfl
  | cons x hrest ih => rw [List.flatMap_cons, List.flatMap_cons, ih (List.pairwise_cons.mp hone).2]
  | swap x y rest =>
    simp only [List.flatMap_cons]
    rcases (List.pairwise_cons.mp hone).1 x List.mem_cons_self with hempty | hempty <;>
      simp [hempty]
  | trans hxy hyz ih ih' =>
    have hsymm : ∀ {x y : α}, f x = [] ∨ f y = [] → f y = [] ∨ f x = [] := Or.symm
    exact (ih hone).trans (ih' ((hxy.pairwise_iff hsymm).mp hone))

namespace Source

/-- Whether no module has items in both of two sources. -/
def Apart (source source' : Source) : Prop :=
  ∀ place item item', Occurs source.module source.items place item →
    ¬ Occurs source'.module source'.items place item'

/-- The imports that a source declares for a module. -/
def importsAt (source : Source) (context : ScanContext) (module : ItemPath) : List ModuleImport :=
  ((source.declarations context).filterMap SymbolTable.importOf?).filter (·.module == module)

/-- An import stands in the module for which it is declared. -/
theorem occurs_of_mem_importsAt {source : Source} {context : ScanContext} {module : ItemPath}
    {i : ModuleImport} (hi : i ∈ source.importsAt context module) :
    ∃ item, Occurs source.module source.items module item := by
  obtain ⟨himport, hmodule⟩ := List.mem_filter.mp hi
  obtain rfl : i.module = module := beq_iff_eq.mp hmodule
  obtain ⟨declaration, hmem, hdeclares⟩ := List.mem_filterMap.mp himport
  cases declaration with
  | binding place binding =>
    obtain rfl := Option.some.inj hdeclares
    rcases List.mem_append.mp hmem with hheads | hitems
    · obtain ⟨path, -, hpath⟩ := List.mem_map.mp hheads
      exact nomatch hpath
    · obtain ⟨place', item, hoccurs, hown⟩ := Item.mem_declarationsOfAll_iff_occurs.mp hitems
      rw [Item.place_of_binding_mem_ownDeclarations hown]
      exact ⟨item, hoccurs⟩
  | _ => exact nomatch hdeclares

/-- Of two sources apart, one has no imports for a module. -/
theorem Apart.importsAt_eq_nil {source source' : Source} (hapart : source.Apart source')
    (context : ScanContext) (module : ItemPath) :
    source.importsAt context module = [] ∨ source'.importsAt context module = [] := by
  by_cases hnil : source.importsAt context module = []
  · exact .inl hnil
  · obtain ⟨i, hi⟩ := List.exists_mem_of_ne_nil _ hnil
    obtain ⟨item, hoccurs⟩ := occurs_of_mem_importsAt hi
    refine .inr (List.eq_nil_iff_forall_not_mem.mpr fun i' hi' => ?_)
    obtain ⟨item', hoccurs'⟩ := occurs_of_mem_importsAt hi'
    exact hapart module item item' hoccurs hoccurs'

/-- In sources that are apart, every module has its imports in the same order. -/
theorem importsOf_eq_of_perm (externCrates : List String) (context : ScanContext)
    {sources sources' : List Source} (hperm : sources.Perm sources')
    (hapart : sources.Pairwise Apart) (module : ItemPath) :
    (SymbolTable.ofDeclarations externCrates
        (sources.flatMap (·.declarations context))).importsOf module =
      (SymbolTable.ofDeclarations externCrates
        (sources'.flatMap (·.declarations context))).importsOf module := by
  have hjoined : ∀ sources : List Source,
      ((sources.flatMap (·.declarations context)).filterMap SymbolTable.importOf?).filter
          (·.module == module) =
        sources.flatMap (·.importsAt context module) := by
    intro sources
    rw [List.filterMap_flatMap, List.filter_flatMap]
    rfl
  rw [SymbolTable.importsOf_ofDeclarations, SymbolTable.importsOf_ofDeclarations, hjoined, hjoined,
    flatMap_eq_of_perm hperm (hapart.imp fun h => h.importsAt_eq_nil context module)]

end Source

/-! ## Feeds -/

namespace Feed

/-- The `impl` blocks of sources that belong to a type. -/
def blocksOf (settings : Settings) (sources : List Source) (target : ItemPath) : List ImplBlock :=
  ((allDeclarations settings sources).filterMap Declaration.impl?).filter fun block =>
    (ofSources settings sources).symbols.resolveItem? block.scope block.selfType == some target

/-- The blocks that belong to a type, found by their targets. -/
theorem flatMap_constructors_implementations (symbols : SymbolTable) (blocks : List ImplBlock)
    (target : ItemPath) :
    ((implementations symbols blocks).filter (·.target == target)).flatMap (·.constructors) =
      (blocks.filter fun block =>
        symbols.resolveItem? block.scope block.selfType == some target).flatMap
          (·.constructors) := by
  induction blocks with
  | nil => rfl
  | cons block blocks ih =>
    cases hresolved : symbols.resolveItem? block.scope block.selfType with
    | none => simpa [implementations, hresolved] using ih
    | some path =>
      by_cases hpath : path = target
      · simpa [implementations, hresolved, hpath] using ih
      · simpa [implementations, hresolved, hpath] using ih

/-- The blocks of sources, with the types to which they belong. -/
def found (settings : Settings) (sources : List Source) : List Implementation :=
  implementations (ofSources settings sources).symbols
    ((allDeclarations settings sources).filterMap Declaration.impl?)

/-- The candidates of sources are their declared types, each with what the whole table says of it.
-/
theorem candidates_eq_map (settings : Settings) (sources : List Source) :
    (ofSources settings sources).candidates =
      ((allDeclarations settings sources).filterMap Declaration.type?).map
        (candidate (ofSources settings sources).symbols (found settings sources)
          settings.dispatcher) :=
  rfl

/-- The constructors of a candidate are those of the blocks that belong to it. -/
theorem constructors_candidate (settings : Settings) (sources : List Source)
    (dispatcher : ItemPath) (type : DeclaredType) :
    (candidate (ofSources settings sources).symbols (found settings sources) dispatcher
        type).constructors =
      (blocksOf settings sources type.path).flatMap (·.constructors) :=
  flatMap_constructors_implementations _ _ _

/-- Whether two candidates, each of some sources, are the same apart from the order of the blocks
that give their constructors. -/
structure SameUpToBlocks (settings : Settings) (sources sources' : List Source)
    (c c' : Candidate) : Prop where
  name : c.name = c'.name
  isAbstract : c.isAbstract = c'.isAbstract
  isPrivate : c.isPrivate = c'.isPrivate
  markers : c.markers = c'.markers
  constructors : c.constructors = (blocksOf settings sources c.name).flatMap (·.constructors)
  constructors' : c'.constructors = (blocksOf settings sources' c.name).flatMap (·.constructors)
  blocks : (blocksOf settings sources c.name).Perm (blocksOf settings sources' c.name)

/-- The tables of sources in two orders agree. As no module has items in two sources, its imports
stay in their order. -/
theorem agrees_ofSources_perm (settings : Settings) {sources sources' : List Source}
    (hperm : sources.Perm sources') (hregular : ∀ source ∈ sources, source.IsRegular)
    (hapart : sources.Pairwise Source.Apart) :
    (ofSources settings sources).symbols.Agrees (ofSources settings sources').symbols :=
  SymbolTable.agrees_of_perm settings.externCrates (hperm.flatMap_right _)
    (scopedAbove_of_mem_allDeclarations hregular)
    (Source.importsOf_eq_of_perm settings.externCrates (.ofSettings settings) hperm hapart)

/-- Sources in another order have the same candidates, apart from their order and the order of
`impl` blocks, and their tables give the same answers. The hypotheses exclude modules with items in
two of the sources, whose imports would change places, and restricted visibilities of modules that
name no module above them, for which several scopes need not have a narrowest one. -/
theorem ofSources_perm (settings : Settings) {sources sources' : List Source}
    (hperm : sources.Perm sources') (hregular : ∀ source ∈ sources, source.IsRegular)
    (hapart : sources.Pairwise Source.Apart) :
    (∃ reordered, (ofSources settings sources').candidates.Perm reordered ∧
      List.Forall₂ (SameUpToBlocks settings sources sources')
        (ofSources settings sources).candidates reordered) ∧
    Resolver.ofTable (ofSources settings sources).symbols =
      Resolver.ofTable (ofSources settings sources').symbols ∧
    (∀ scope type, (ofSources settings sources).symbols.resolveItem? scope type =
      (ofSources settings sources').symbols.resolveItem? scope type) ∧
    ∀ item visibleIn source,
      (ofSources settings sources).symbols.isReachable item visibleIn source =
        (ofSources settings sources').symbols.isReachable item visibleIn source := by
  have hagrees := agrees_ofSources_perm settings hperm hregular hapart
  refine ⟨?_, hagrees.resolver_eq, fun scope type => by rw [hagrees.resolveItem?_eq],
    hagrees.isReachable_eq⟩
  have hdeclarations :
      (allDeclarations settings sources).Perm (allDeclarations settings sources') :=
    hperm.flatMap_right _
  rw [candidates_eq_map, candidates_eq_map]
  refine ⟨((allDeclarations settings sources).filterMap Declaration.type?).map
    (candidate (ofSources settings sources').symbols (found settings sources')
      settings.dispatcher), ((hdeclarations.filterMap _).map _).symm, ?_⟩
  refine List.forall₂_map_left_iff.mpr (List.forall₂_map_right_iff.mpr ?_)
  refine List.forall₂_same.mpr fun type _ => ?_
  have hconstructors := constructors_candidate settings sources settings.dispatcher type
  have hconstructors' := constructors_candidate settings sources' settings.dispatcher type
  have hblocks : (blocksOf settings sources type.path).Perm
      (blocksOf settings sources' type.path) := by
    rw [blocksOf, blocksOf, hagrees.resolveItem?_eq]
    exact (hdeclarations.filterMap Declaration.impl?).filter _
  constructor
  case constructors => exact hconstructors
  case constructors' => exact hconstructors'
  case blocks => exact hblocks
  all_goals simp only [candidate, hagrees.isReachable_eq]

/-! ## A block before its type -/

/-- A module with an `impl` block of an imported service, the module item that narrows the module of
the service, and that module. -/
def blockBeforeType : List Source := [
  ⟨⟨"crate::make"⟩, [
    .impl ⟨[], false, false, .path false [.mk "UserService" .none],
      [⟨[], .everyone, "new", false, false, false, false, [.reference none false
        (.path false [.mk "ServiceCtx" .none])], some (.path false [.mk "Self" .none])⟩]⟩,
    .use [] false (.path "crate" (.path "acc" (.path "user" .glob)))]⟩,
  ⟨⟨"crate::acc"⟩, [.module ⟨[], .inherited, "user", by decide⟩ none]⟩,
  ⟨⟨"crate::acc::user"⟩, [.type ⟨.struct, [], .everyone, "UserService", by decide, false⟩]⟩]

/-- All items of these modules stand at their top level. -/
theorem here_of_occurs_blockBeforeType {source : Source} (hsource : source ∈ blockBeforeType)
    {place : ItemPath} {item : Item} (hoccurs : Occurs source.module source.items place item) :
    place = source.module ∧ item ∈ source.items := by
  simp only [blockBeforeType, List.mem_cons, List.not_mem_nil, or_false] at hsource
  rcases hsource with rfl | rfl | rfl <;>
    cases hoccurs with
    | here hmem => exact ⟨rfl, hmem⟩
    | inModule hmem => simp at hmem
    | inItem hmem => simp at hmem

/-- No visibility of these modules is restricted. -/
theorem isRegular_blockBeforeType : ∀ source ∈ blockBeforeType, source.IsRegular := by
  intro source hsource
  refine ⟨?_, fun place decl content hoccurs => ?_⟩
  · simp only [blockBeforeType, List.mem_cons, List.not_mem_nil, or_false] at hsource
    rcases hsource with rfl | rfl | rfl
    · exact ⟨["make"], by decide, rfl⟩
    · exact ⟨["acc"], by decide, rfl⟩
    · exact ⟨["acc", "user"], by decide, rfl⟩
  · have hmem := (here_of_occurs_blockBeforeType hsource hoccurs).2
    simp only [blockBeforeType, List.mem_cons, List.not_mem_nil, or_false] at hsource
    rcases hsource with rfl | rfl | rfl
    · simp at hmem
    · obtain ⟨rfl, -⟩ := Item.module.inj (List.mem_singleton.mp hmem)
      intro _ h
      cases h
    · simp at hmem

/-- The modules have no items in common. -/
theorem apart_blockBeforeType : blockBeforeType.Pairwise Source.Apart := by
  have hmodules : blockBeforeType.Pairwise fun source source' =>
      source.module ≠ source'.module := by decide
  refine hmodules.imp_of_mem fun hsource hsource' hne place item item' hoccurs hoccurs' => ?_
  obtain ⟨rfl, -⟩ := here_of_occurs_blockBeforeType hsource hoccurs
  exact hne (here_of_occurs_blockBeforeType hsource' hoccurs').1

/-- The service has its constructor, and is private, whether the block and the module item come
before the type or after it. -/
theorem ofSources_reverse_blockBeforeType :
    (∀ source ∈ blockBeforeType, source.IsRegular) ∧ blockBeforeType.Pairwise Source.Apart ∧
      (∃ c c' : Candidate, (ofSources {} blockBeforeType).candidates = [c] ∧
        (ofSources {} blockBeforeType.reverse).candidates = [c'] ∧
        SameUpToBlocks {} blockBeforeType blockBeforeType.reverse c c' ∧
        c'.isPrivate = true ∧ c'.constructors.map (·.name) = ["new"]) ∧
      Resolver.ofTable (ofSources {} blockBeforeType).symbols =
        Resolver.ofTable (ofSources {} blockBeforeType.reverse).symbols := by
  obtain ⟨⟨reordered, hreordered, hsame⟩, hresolver, -, -⟩ := ofSources_perm {}
    (List.reverse_perm blockBeforeType).symm isRegular_blockBeforeType apart_blockBeforeType
  refine ⟨isRegular_blockBeforeType, apart_blockBeforeType, ?_, hresolver⟩
  have hcount : ((ofSources {} blockBeforeType.reverse).candidates.map fun c =>
      (c.isPrivate, c.constructors.map (·.name))) = [(true, ["new"])] := by decide +kernel
  cases hcandidates' : (ofSources {} blockBeforeType.reverse).candidates with
  | nil => simp [hcandidates'] at hcount
  | cons c' rest =>
    rw [hcandidates', List.map_cons, List.cons.injEq, List.map_eq_nil_iff, Prod.mk.injEq] at hcount
    obtain ⟨⟨hprivate, hnames⟩, rfl⟩ := hcount
    rw [hcandidates', List.singleton_perm] at hreordered
    subst hreordered
    obtain ⟨c, rest, hc, hrest, hcandidates⟩ := List.forall₂_cons_right_iff.mp hsame
    rw [List.forall₂_nil_right_iff.mp hrest] at hcandidates
    exact ⟨c, c', hcandidates, rfl, hc, hprivate, hnames⟩

end Feed

end ServiceDispatch
