import ServiceDispatch.Proofs.Regeneration.Avoiding
import ServiceDispatch.Proofs.Selection.Resolvers
import ServiceDispatch.Proofs.Soundness.Rules

/-!
# Feeds with one more source

A source that holds nothing but `impl` blocks without constructors declares its module and nothing
else. Added among the sources of a crate, under a name that nothing in the crate has, it changes
neither the candidates nor the artifact.
-/

namespace ServiceDispatch

/-! ## Silent sources -/

/-- Whether an item is an `impl` block in which no function constructs a type. -/
def Item.IsSilent (item : Item) : Prop :=
  ∃ decl, item = .impl decl ∧ ∀ method ∈ decl.methods, ∀ terminal scope dispatcher,
    method.isConstructor terminal scope dispatcher = false

/-- Whether a declaration is an `impl` block without constructors. -/
def Declaration.IsSilent (declaration : Declaration) : Prop :=
  ∃ block : ImplBlock, declaration = .impl block ∧ block.constructors = []

/-- Silent items declare blocks without constructors, in the module in which they stand. -/
theorem Item.isSilent_of_mem_declarationsOfAll {context : ScanContext} {module : ItemPath}
    {items : List Item} (hitems : ∀ item ∈ items, item.IsSilent) {declaration : Declaration}
    (hmem : declaration ∈ declarationsOfAll context module items) : declaration.IsSilent := by
  obtain ⟨item, hitem, hmem⟩ := mem_declarationsOfAll.mp hmem
  obtain ⟨decl, rfl, hmethods⟩ := hitems item hitem
  obtain ⟨block, hblock, rfl⟩ := List.mem_map.mp hmem
  refine ⟨block, rfl, ?_⟩
  rw [Option.mem_toList, ImplDecl.block?] at hblock
  split at hblock
  · cases hblock
  · obtain ⟨terminal, -, rfl⟩ := Option.map_eq_some_iff.mp hblock
    refine List.map_eq_nil_iff.mpr (List.filter_eq_nil_iff.mpr fun method hmethod => ?_)
    exact ne_true_of_eq_false (hmethods method hmethod _ _ _)

/-- Whether a source stands in the module of a name at the root, and all its items are silent. -/
structure Source.IsSilent (name : String) (source : Source) : Prop where
  module : source.module = ItemPath.root.join name
  items : ∀ item ∈ source.items, item.IsSilent

/-- A silent source declares the root, its module and blocks without constructors. -/
theorem Source.IsSilent.exists_declarations {name : String} {source : Source}
    (hsource : source.IsSilent name) (hname : IsSegment name) (context : ScanContext) :
    ∃ blocks, source.declarations context =
        .module .root .root :: .module (ItemPath.root.join name) .root :: blocks ∧
      ∀ declaration ∈ blocks, declaration.IsSilent := by
  refine ⟨Item.declarationsOfAll context source.module source.items, ?_,
    fun _ hmem => Item.isSilent_of_mem_declarationsOfAll hsource.items hmem⟩
  rw [Source.declarations, hsource.module, ItemPath.inCrate_root.ancestors_join hname,
    ItemPath.ancestors_root]
  rfl

/-! ## Tables -/

namespace SymbolTable

namespace SameApart

variable {added : ItemPath} {table table' table'' : SymbolTable}

/-- Two tables are the same as a third one apart from a module. -/
theorem trans (h : SameApart added table table') (h' : SameApart added table' table'') :
    SameApart added table table'' where
  items := h'.items.trans h.items
  scopes := fun path hpath => (h'.scopes path hpath).trans (h.scopes path hpath)
  imports := h'.imports.trans h.imports
  externCrates := h'.externCrates.trans h.externCrates

/-- One more declaration keeps tables the same apart from a module. -/
theorem declare (h : SameApart added table table') (declaration : Declaration) :
    SameApart added (table.declare declaration) (table'.declare declaration) := by
  cases declaration with
  | module path visibleIn =>
    refine ⟨h.items, fun other hother => ?_, h.imports, h.externCrates⟩
    rw [SymbolTable.declare, SymbolTable.declare, scope?_declareModule, scope?_declareModule,
      h.scopes other hother]
    by_cases hpath : other = path
    · subst hpath
      rw [if_pos rfl, if_pos rfl, scopeAfter, scopeAfter, h.scopes other hother]
    · rw [if_neg hpath, if_neg hpath]
  | type declared =>
    exact ⟨congrArg (· ++ [declared.path]) h.items, h.scopes, h.imports, h.externCrates⟩
  | name path => exact ⟨congrArg (· ++ [path]) h.items, h.scopes, h.imports, h.externCrates⟩
  | binding module binding =>
    exact ⟨h.items, h.scopes, congrArg (· ++ [ModuleImport.mk module binding]) h.imports,
      h.externCrates⟩
  | impl block => exact h

/-- More declarations keep tables the same apart from a module. -/
theorem foldl_declare (h : SameApart added table table') (declarations : List Declaration) :
    SameApart added (declarations.foldl SymbolTable.declare table)
      (declarations.foldl SymbolTable.declare table') := by
  induction declarations generalizing table table' with
  | nil => exact h
  | cons declaration rest ih => exact ih (h.declare declaration)

/-- Silent declarations do not change a table: they are blocks, which declare no names. -/
theorem foldl_declare_of_isSilent {blocks : List Declaration}
    (hblocks : ∀ declaration ∈ blocks, declaration.IsSilent) (table : SymbolTable) :
    blocks.foldl SymbolTable.declare table = table := by
  induction blocks with
  | nil => rfl
  | cons declaration rest ih =>
    obtain ⟨⟨block, rfl, -⟩, hrest⟩ := List.forall_mem_cons.mp hblocks
    exact ih hrest

/-- Declaring the root once more, and a module, changes nothing else. -/
theorem declare_root_module (hroot : table.hasModule .root) (added : ItemPath) :
    SameApart added table
      ((table.declare (.module .root .root)).declare (.module added .root)) := by
  refine ⟨rfl, fun path hpath => ?_, rfl, rfl⟩
  rw [SymbolTable.declare, SymbolTable.declare, scope?_declareModule, if_neg hpath,
    scope?_declareModule]
  by_cases hpathroot : path = .root
  · obtain ⟨scope, hscope⟩ := Option.isSome_iff_exists.mp hroot
    have hdepth : ¬ ItemPath.root.depth > scope.depth := by
      rw [show ItemPath.root.depth = 0 from rfl]
      exact Nat.not_lt_zero _
    rw [if_pos hpathroot, hpathroot, scopeAfter, hscope, Option.getD_some, if_neg hdepth]
  · rw [if_neg hpathroot]

end SameApart

/-- A silent source among others declares its module and nothing else. -/
theorem sameApart_insert (externCrates : List String) (context : ScanContext) {name : String}
    (hname : IsSegment name) {source : Source} (hsource : source.IsSilent name)
    (front back : List Source) :
    SameApart (ItemPath.root.join name)
      (ofDeclarations externCrates ((front ++ back).flatMap (·.declarations context)))
      (ofDeclarations externCrates
        ((front ++ source :: back).flatMap (·.declarations context))) := by
  obtain ⟨blocks, hdeclarations, hblocks⟩ := hsource.exists_declarations hname context
  have hroot : (ofDeclarations externCrates
      (front.flatMap (·.declarations context))).hasModule .root :=
    hasModule_ofDeclarations_iff.mpr (.inl rfl)
  simp only [ofDeclarations, List.flatMap_append, List.flatMap_cons, List.foldl_append,
    hdeclarations, List.foldl_cons, SameApart.foldl_declare_of_isSilent hblocks]
  exact (SameApart.declare_root_module hroot _).foldl_declare _

end SymbolTable

/-! ## Candidates -/

namespace Feed

variable {settings : Settings} {name : String} {source : Source} {front back : List Source}

/-- The table of sources with one more source has its module, and all else as before. -/
theorem addsModule_ofSources (hname : IsIdentifier name)
    (hunknown : ∀ p, SymbolTable.wellKnown name ≠ .ok p)
    (hcrates : name ∉ (ofSources settings (front ++ back)).symbols.externCrates)
    (hsources : ∀ source ∈ front ++ back, source.NamedBy (IsOtherThan name))
    (hsource : source.IsSilent name) :
    (ofSources settings (front ++ back)).symbols.AddsModule
      (ofSources settings (front ++ source :: back)).symbols name where
  isIdentifier := hname
  unknown := hunknown
  same := SymbolTable.sameApart_insert _ _ hname.isSegment hsource front back
  avoids := avoids_ofSources hname hcrates hsources
  wellNamed := (connected_ofSources fun source hsource =>
    (hsources source hsource).mono fun _ h => h.1).usesIdentifiers.wellNamed

/-- Blocks without constructors give none, whichever of them are attached. -/
theorem flatMap_constructors_filter {blocks : List ImplBlock}
    (hblocks : ∀ block ∈ blocks, block.constructors = []) (p : ImplBlock → Bool) :
    (blocks.filter p).flatMap (·.constructors) = [] :=
  List.flatMap_eq_nil_iff.mpr fun block hblock => hblocks block (List.mem_of_mem_filter hblock)

/-- All `impl` blocks of sources of the crate stand in its modules. -/
theorem inCrate_of_impl_mem_allDeclarations {sources : List Source}
    (hsources : ∀ source ∈ sources, source.module.InCrate) {block : ImplBlock}
    (hblock : block ∈ (allDeclarations settings sources).filterMap Declaration.impl?) :
    block.scope.InCrate := by
  obtain ⟨declaration, hmem, himpl⟩ := List.mem_filterMap.mp hblock
  cases declaration with
  | impl other =>
    obtain rfl := Option.some.inj himpl
    obtain ⟨source, hsource, place, item, hoccurs, hown⟩ :=
      occurs_of_mem_allDeclarations hmem fun _ _ h => nomatch h
    obtain ⟨decl, rfl, hdecl⟩ := Item.of_impl_mem_ownDeclarations hown
    unfold ImplDecl.block? at hdecl
    split at hdecl
    · exact nomatch hdecl
    · obtain ⟨terminal, -, rfl⟩ := Option.map_eq_some_iff.mp hdecl
      exact hoccurs.inCrate (hsources source hsource)
  | _ => exact nomatch himpl

/-- One more silent source gives no type a constructor, since its only block has none. -/
theorem constructors_insert
    (hadds : (ofSources settings (front ++ back)).symbols.AddsModule
      (ofSources settings (front ++ source :: back)).symbols name)
    (hsources : ∀ source ∈ front ++ back, source.module.InCrate) (hsource : source.IsSilent name)
    (target : ItemPath) :
    (blocksOf settings (front ++ source :: back) target).flatMap (·.constructors) =
      (blocksOf settings (front ++ back) target).flatMap (·.constructors) := by
  obtain ⟨hfront, hback⟩ := List.forall_mem_append.mp hsources
  obtain ⟨blocks, hdeclarations, hblocks⟩ :=
    hsource.exists_declarations hadds.isIdentifier.isSegment (.ofSettings settings)
  have hsilent : ∀ block ∈ blocks.filterMap Declaration.impl?, block.constructors = [] := by
    intro block hblock
    obtain ⟨declaration, hmem, himpl⟩ := List.mem_filterMap.mp hblock
    obtain ⟨other, rfl, hother⟩ := hblocks declaration hmem
    rwa [← Option.some.inj himpl]
  have hsame {sources : List Source} (hsources : ∀ source ∈ sources, source.module.InCrate) :
      ((allDeclarations settings sources).filterMap Declaration.impl?).filter (fun block =>
        (ofSources settings (front ++ source :: back)).symbols.resolveItem? block.scope
          block.selfType == some target) =
      ((allDeclarations settings sources).filterMap Declaration.impl?).filter fun block =>
        (ofSources settings (front ++ back)).symbols.resolveItem? block.scope
          block.selfType == some target := by
    refine List.filter_congr fun block hblock => ?_
    rw [hadds.resolveItem?_eq (inCrate_of_impl_mem_allDeclarations hsources hblock)]
  have hbefore : allDeclarations settings (front ++ back) =
      allDeclarations settings front ++ allDeclarations settings back := List.flatMap_append
  have hafter : allDeclarations settings (front ++ source :: back) =
      allDeclarations settings front ++ (.module .root .root ::
        .module (ItemPath.root.join name) .root :: blocks) ++ allDeclarations settings back := by
    rw [allDeclarations, List.flatMap_append, List.flatMap_cons, hdeclarations, ← List.append_assoc]
    rfl
  have himpls : (Declaration.module .root .root :: .module (ItemPath.root.join name) .root ::
      blocks).filterMap Declaration.impl? = blocks.filterMap Declaration.impl? := rfl
  rw [blocksOf, blocksOf, hbefore, hafter]
  simp only [List.filterMap_append, List.filter_append, List.flatMap_append, himpls, hsame hfront,
    hsame hback, flatMap_constructors_filter hsilent, List.append_nil]

/-- One more silent source declares no type, and leaves the others in their order. -/
theorem filterMap_type?_insert (hname : IsSegment name) (hsource : source.IsSilent name) :
    (allDeclarations settings (front ++ source :: back)).filterMap Declaration.type? =
      (allDeclarations settings (front ++ back)).filterMap Declaration.type? := by
  obtain ⟨blocks, hdeclarations, hblocks⟩ :=
    hsource.exists_declarations hname (.ofSettings settings)
  have hnone : blocks.filterMap Declaration.type? = [] := by
    refine List.filterMap_eq_nil_iff.mpr fun declaration hmem => ?_
    obtain ⟨block, rfl, -⟩ := hblocks declaration hmem
    rfl
  simp only [allDeclarations, List.flatMap_append, List.flatMap_cons, hdeclarations,
    List.filterMap_append, List.filterMap_cons, Declaration.type?, hnone, List.nil_append]

/-- A declared type is a declared item of the table of the same sources. -/
theorem hasItem_of_mem_types {sources : List Source} {type : DeclaredType}
    (htype : type ∈ (allDeclarations settings sources).filterMap Declaration.type?) :
    (ofSources settings sources).symbols.hasItem type.path := by
  obtain ⟨declaration, hmem, hdeclares⟩ := List.mem_filterMap.mp htype
  refine SymbolTable.hasItem_ofDeclarations_iff.mpr ⟨declaration, hmem, ?_⟩
  cases declaration with
  | type declared => rw [← Option.some.inj hdeclares, SymbolTable.itemOf?]
  | _ => cases hdeclares

/-- The same code can name a type, since the added module is not above it. -/
theorem isReachable_insert
    (hadds : (ofSources settings (front ++ back)).symbols.AddsModule
      (ofSources settings (front ++ source :: back)).symbols name)
    (hsources : ∀ source ∈ front ++ back, source.NamedBy (IsOtherThan name))
    {type : DeclaredType}
    (htype : type ∈ (allDeclarations settings (front ++ back)).filterMap Declaration.type?)
    (visibleIn dispatcher : ItemPath) :
    (ofSources settings (front ++ source :: back)).symbols.isReachable type.path visibleIn
        dispatcher =
      (ofSources settings (front ++ back)).symbols.isReachable type.path visibleIn dispatcher := by
  have hitem := hasItem_of_mem_types htype
  have hscopes : ∀ module ∈ type.path.ancestors,
      (ofSources settings (front ++ source :: back)).symbols.scope? module =
        (ofSources settings (front ++ back)).symbols.scope? module := by
    intro module hmodule
    have hmade := (madeOf_of_hasItem hsources hitem).of_mem_ancestors
      (fun _ h => h.1.isSegment) hmodule
    exact hadds.same.scopes module (hmade.ne_join_root hadds.isIdentifier.isSegment)
  rw [SymbolTable.isReachable, SymbolTable.isReachable, Bool.eq_iff_iff, Bool.and_eq_true,
    Bool.and_eq_true, List.all_eq_true, List.all_eq_true]
  refine and_congr_right fun _ => forall₂_congr fun module hmodule => ?_
  rw [hscopes module hmodule]

/-- One more silent source changes no candidate, if its name is used nowhere: not by another source,
not for an external crate and not in the prelude. -/
theorem candidates_insert (hname : IsIdentifier name)
    (hunknown : ∀ p, SymbolTable.wellKnown name ≠ .ok p)
    (hcrates : name ∉ (ofSources settings (front ++ back)).symbols.externCrates)
    (hsources : ∀ source ∈ front ++ back, source.NamedBy (IsOtherThan name))
    (hsource : source.IsSilent name) :
    (ofSources settings (front ++ source :: back)).candidates =
      (ofSources settings (front ++ back)).candidates := by
  have hadds := addsModule_ofSources hname hunknown hcrates hsources hsource
  have hcrate : ∀ source ∈ front ++ back, source.module.InCrate := fun source hsource =>
    ItemPath.MadeOf.inCrate (hsources source hsource).module fun _ h => h.1.isSegment
  rw [candidates_eq_map, candidates_eq_map, filterMap_type?_insert hname.isSegment hsource]
  refine List.map_congr_left fun type htype => ?_
  have hconstructors := constructors_candidate settings (front ++ back) settings.dispatcher type
  have hconstructors' :=
    constructors_candidate settings (front ++ source :: back) settings.dispatcher type
  rw [constructors_insert hadds hcrate hsource, ← hconstructors] at hconstructors'
  have hreachable := isReachable_insert hadds hsources htype
  simp only [candidate] at hconstructors' ⊢
  rw [hreachable, hconstructors']

/-! ## Artifacts -/

/-- The parameters of candidates are written in modules of the crate. -/
theorem inCrate_scope_of_mem_candidates {sources : List Source}
    (hsources : ∀ source ∈ sources, source.module.InCrate) {c : Candidate}
    (hc : c ∈ (ofSources settings sources).candidates) {k : Constructor} (hk : k ∈ c.constructors)
    {parameter : Parameter} (hparameter : parameter ∈ k.params) : parameter.scope.InCrate := by
  obtain ⟨source, hsource, place, decl, method, hoccurs, -, -, -, -, -, -, -, -, -, -, -, rfl⟩ :=
    constructs_of_mem_candidates hc k hk
  obtain ⟨type, -, rfl⟩ := List.mem_map.mp hparameter
  have hscope : (Parameter.ofTy type place).scope = place := by
    cases type <;> rfl
  rw [hscope]
  exact hoccurs.inCrate (hsources source hsource)

/-- One more silent source changes no artifact, if its name is used nowhere: not by another source,
not for an external crate and not in the prelude. -/
theorem ofFeed_insert (hname : IsIdentifier name)
    (hunknown : ∀ p, SymbolTable.wellKnown name ≠ .ok p)
    (hcrates : name ∉ (ofSources settings (front ++ back)).symbols.externCrates)
    (hsources : ∀ source ∈ front ++ back, source.NamedBy (IsOtherThan name))
    (hsource : source.IsSilent name) {artifact : Artifact}
    (hartifact : Artifact.ofFeed settings (ofSources settings (front ++ back)) = .ok artifact) :
    Artifact.ofFeed settings (ofSources settings (front ++ source :: back)) = .ok artifact := by
  have hadds := addsModule_ofSources hname hunknown hcrates hsources hsource
  have hcrate : ∀ source ∈ front ++ back, source.module.InCrate := fun source hsource =>
    ItemPath.MadeOf.inCrate (hsources source hsource).module fun _ h => h.1.isSegment
  have halike : ∀ c ∈ (ofSources settings (front ++ back)).candidates, ∀ k ∈ c.constructors,
      k.RendersAlike (.ofTable (ofSources settings (front ++ back)).symbols)
        (.ofTable (ofSources settings (front ++ source :: back)).symbols) :=
    fun c hc k hk parameter hparameter r =>
      hadds.resolver_iff (inCrate_scope_of_mem_candidates hcrate hc hk hparameter) r
  unfold Artifact.ofFeed Artifact.ofCandidates at hartifact ⊢
  rw [candidates_insert hname hunknown hcrates hsources hsource]
  split at hartifact
  · rename_i selection hselection
    rw [Selection.ofCandidates_of_rendersAlike halike hselection]
    exact hartifact
  · exact nomatch hartifact

end Feed

end ServiceDispatch
