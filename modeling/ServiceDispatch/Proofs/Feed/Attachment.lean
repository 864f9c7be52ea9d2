import ServiceDispatch.Proofs.Soundness.Constructors

/-!
# Attaching constructors

The `impl` blocks of all sources are listed first, and only when everything is declared they are
attached to the types that they are about. A candidate has the constructors of the blocks whose type
resolves to it, in the order of the sources, of the blocks in a source and of the functions in a
block, each of them once. Other blocks give nothing to any candidate: without them the candidates
are the same. Blocks inside functions are not listed, since items there cannot be named from the
crate.
-/

namespace ServiceDispatch

/-! ## The blocks of a source -/

namespace Item

mutual

/-- The `impl` blocks of an item of a module, with the modules in which they stand, in source
order. -/
def impls (module : ItemPath) : Item → List (ItemPath × ImplDecl)
  | .module decl (some items) =>
    if isTestOnly decl.attributes then [] else implsOfAll (module.join decl.name) items
  | .impl decl => [(module, decl)]
  | .other inner => implsOfAll module inner
  | _ => []

/-- The `impl` blocks of items of a module. -/
def implsOfAll (module : ItemPath) : List Item → List (ItemPath × ImplDecl)
  | [] => []
  | item :: items => item.impls module ++ implsOfAll module items

end

mutual

/-- The blocks among the declarations of an item are its `impl` blocks without trait and
parameters. -/
theorem filterMap_impl?_declarations (context : ScanContext) (module : ItemPath) (item : Item) :
    (item.declarations context module).filterMap Declaration.impl? =
      (item.impls module).filterMap fun (place, decl) => decl.block? place context.dispatcher := by
  cases item with
  | module decl content =>
    cases content with
    | none =>
      rw [declarations]
      split <;> rfl
    | some items =>
      have hinside := filterMap_impl?_declarationsOfAll context (module.join decl.name) items
      rw [declarations, impls]
      split
      · rfl
      · exact hinside
  | type decl =>
    rw [declarations]
    split <;> rfl
  | name declared => rfl
  | use attributes rooted tree =>
    have hbindings : ∀ bindings : List Import,
        (bindings.map (Declaration.binding module)).filterMap Declaration.impl? = [] := by
      intro bindings
      induction bindings with
      | nil => rfl
      | cons binding bindings ih => exact ih
    rw [declarations]
    split
    · rfl
    · exact hbindings _
  | impl decl =>
    rw [declarations, impls]
    cases hblock : decl.block? module context.dispatcher <;>
      simp [hblock, Declaration.impl?]
  | function => rfl
  | other inner => exact filterMap_impl?_declarationsOfAll context module inner

/-- The blocks among the declarations of items are their `impl` blocks without trait and
parameters. -/
theorem filterMap_impl?_declarationsOfAll (context : ScanContext) (module : ItemPath)
    (items : List Item) :
    (declarationsOfAll context module items).filterMap Declaration.impl? =
      (implsOfAll module items).filterMap fun (place, decl) =>
        decl.block? place context.dispatcher := by
  cases items with
  | nil => rfl
  | cons item items =>
    rw [declarationsOfAll, implsOfAll, List.filterMap_append, List.filterMap_append,
      filterMap_impl?_declarations context module item,
      filterMap_impl?_declarationsOfAll context module items]

end

/-- Items have the blocks of each of them, and no others. -/
theorem mem_implsOfAll {module : ItemPath} {items : List Item} {found : ItemPath × ImplDecl} :
    found ∈ implsOfAll module items ↔ ∃ item ∈ items, found ∈ item.impls module := by
  induction items with
  | nil => simp [implsOfAll]
  | cons item items ih => rw [implsOfAll, List.mem_append, ih, List.exists_mem_cons_iff]

mutual

/-- A block of an item stands in it, at the place that is listed with it. -/
theorem occurs_of_mem_impls (module : ItemPath) (item : Item) (place : ItemPath) (decl : ImplDecl)
    (hmem : (place, decl) ∈ item.impls module) : Occurs module [item] place (.impl decl) := by
  cases item with
  | module outer content =>
    cases content with
    | none => exact absurd hmem List.not_mem_nil
    | some items =>
      rw [impls] at hmem
      split at hmem
      · exact absurd hmem List.not_mem_nil
      · rename_i hcompiled
        have hinside := occurs_of_mem_implsOfAll (module.join outer.name) items place decl hmem
        exact .inModule (List.mem_singleton.mpr rfl) (Bool.eq_false_iff.mpr hcompiled) hinside
  | impl other =>
    obtain ⟨rfl, rfl⟩ := Prod.mk.inj (List.mem_singleton.mp hmem)
    exact .here (List.mem_singleton.mpr rfl)
  | other inner =>
    have hinner := occurs_of_mem_implsOfAll module inner place decl hmem
    exact .inItem (List.mem_singleton.mpr rfl) hinner
  | _ => exact absurd hmem List.not_mem_nil

/-- A block of some items stands among them, at the place that is listed with it. -/
theorem occurs_of_mem_implsOfAll (module : ItemPath) (items : List Item) (place : ItemPath)
    (decl : ImplDecl) (hmem : (place, decl) ∈ implsOfAll module items) :
    Occurs module items place (.impl decl) := by
  cases items with
  | nil => exact absurd hmem List.not_mem_nil
  | cons item items =>
    rw [implsOfAll, List.mem_append] at hmem
    rcases hmem with hfirst | hrest
    · refine (occurs_of_mem_impls module item place decl hfirst).mono ?_
      intro other hother
      rw [List.mem_singleton.mp hother]
      exact List.mem_cons_self
    · exact (occurs_of_mem_implsOfAll module items place decl hrest).mono
        (List.subset_cons_self _ _)

end

/-- The blocks of items are those that stand among them, at any depth, outside modules for tests. -/
theorem mem_implsOfAll_iff_occurs {module place : ItemPath} {items : List Item} {decl : ImplDecl} :
    (place, decl) ∈ implsOfAll module items ↔ Occurs module items place (.impl decl) := by
  refine ⟨occurs_of_mem_implsOfAll module items place decl, fun hoccurs => ?_⟩
  generalize hitem : Item.impl decl = item at hoccurs
  induction hoccurs with
  | here hmem =>
    subst hitem
    exact mem_implsOfAll.mpr ⟨_, hmem, List.mem_singleton.mpr rfl⟩
  | inModule hmem hcompiled hcontent ih =>
    refine mem_implsOfAll.mpr ⟨_, hmem, ?_⟩
    rw [impls, hcompiled]
    exact ih hitem
  | inItem hmem hinner ih => exact mem_implsOfAll.mpr ⟨_, hmem, ih hitem⟩

end Item

namespace Source

/-- The `impl` blocks of a source, in source order. -/
def impls (source : Source) : List (ItemPath × ImplDecl) :=
  Item.implsOfAll source.module source.items

/-- The blocks among the declarations of a source are its `impl` blocks without trait and
parameters. -/
theorem filterMap_impl?_declarations (source : Source) (context : ScanContext) :
    (source.declarations context).filterMap Declaration.impl? =
      source.impls.filterMap fun (place, decl) => decl.block? place context.dispatcher := by
  have hheads : ∀ paths : List ItemPath,
      (paths.map (Declaration.module · .root)).filterMap Declaration.impl? = [] := by
    intro paths
    induction paths with
    | nil => rfl
    | cons path paths ih => exact ih
  rw [declarations, List.filterMap_append, hheads, List.nil_append,
    Item.filterMap_impl?_declarationsOfAll, impls]

end Source

/-! ## What a block contributes -/

namespace ImplDecl

/-- Whether an `impl` has no trait and no parameters and is not for tests only. -/
def isPlain (decl : ImplDecl) : Bool :=
  !decl.hasTrait && !decl.isGeneric && !isTestOnly decl.attributes

/-- The functions of an `impl` in a module that are accepted as constructors, in source order. -/
def accepted (decl : ImplDecl) (place dispatcher : ItemPath) : List Constructor :=
  match decl.selfType.terminal? with
  | some terminal =>
    (decl.methods.filter (·.isConstructor terminal place dispatcher)).map (·.constructor place)
  | none => []

/-- A block belongs to a type if it is plain and its type resolves to it. -/
def belongsTo (decl : ImplDecl) (symbols : SymbolTable) (place target : ItemPath) : Bool :=
  decl.isPlain && symbols.resolveItem? place decl.selfType == some target

/-- A plain `impl` of a path is a block with its accepted functions, and no other one is a block. -/
theorem block?_eq (decl : ImplDecl) (place dispatcher : ItemPath) :
    decl.block? place dispatcher =
      if decl.isPlain && decl.selfType.terminal?.isSome then
        some ⟨place, decl.selfType, decl.accepted place dispatcher⟩
      else none := by
  rw [block?, isPlain, accepted]
  cases decl.hasTrait <;> cases decl.isGeneric <;> cases isTestOnly decl.attributes <;>
    cases decl.selfType.terminal? <;> rfl

/-- The blocks among `impl` items that belong to a type have the accepted functions of those
items. -/
theorem flatMap_filter_block? (symbols : SymbolTable) (dispatcher target : ItemPath)
    (impls : List (ItemPath × ImplDecl)) :
    ((impls.filterMap fun (place, decl) => decl.block? place dispatcher).filter fun block =>
        symbols.resolveItem? block.scope block.selfType == some target).flatMap (·.constructors) =
      (impls.filter fun (place, decl) => decl.belongsTo symbols place target).flatMap
        fun (place, decl) => decl.accepted place dispatcher := by
  induction impls with
  | nil => rfl
  | cons first impls ih =>
    obtain ⟨place, decl⟩ := first
    simp only [block?_eq, belongsTo] at ih ⊢
    cases hplain : decl.isPlain with
    | false => simpa [hplain] using ih
    | true =>
      cases hterminal : decl.selfType.terminal? with
      | none =>
        have hnothing : decl.accepted place dispatcher = [] := by rw [accepted, hterminal]
        cases htarget : symbols.resolveItem? place decl.selfType == some target <;>
          simpa [hplain, hterminal, htarget, hnothing] using ih
      | some terminal =>
        cases htarget : symbols.resolveItem? place decl.selfType == some target <;>
          simpa [hplain, hterminal, htarget] using ih

end ImplDecl

namespace Feed

/-- The constructors that sources give to a type: the accepted functions of all plain blocks whose
type resolves to it, in the table of everything that the sources declare. -/
def attached (settings : Settings) (sources : List Source) (target : ItemPath) :
    List Constructor :=
  ((sources.flatMap Source.impls).filter fun (place, decl) =>
    decl.belongsTo (ofSources settings sources).symbols place target).flatMap
      fun (place, decl) => decl.accepted place settings.dispatcher

/-- The constructors of a candidate are those attached to its path. -/
theorem constructors_eq_attached {settings : Settings} {sources : List Source} {c : Candidate}
    (hc : c ∈ (ofSources settings sources).candidates) :
    c.constructors = attached settings sources c.name := by
  have hblocks : (allDeclarations settings sources).filterMap Declaration.impl? =
      (sources.flatMap Source.impls).filterMap fun (place, decl) =>
        decl.block? place settings.dispatcher := by
    rw [allDeclarations, List.filterMap_flatMap, List.filterMap_flatMap]
    exact List.flatMap_congr fun source _ => source.filterMap_impl?_declarations _
  rw [constructors_of_mem_candidates hc, blocksOf, hblocks, attached,
    ImplDecl.flatMap_filter_block?]

end Feed

/-! ## Leaving blocks out -/

namespace Declaration

/-- Whether a declaration is more than a block. -/
def isNoBlock (declaration : Declaration) : Bool := declaration.impl?.isNone

/-- Blocks are no types, so that the types stay if blocks are left out. -/
theorem filterMap_type?_filter (declarations : List Declaration) :
    (declarations.filter isNoBlock).filterMap type? = declarations.filterMap type? := by
  rw [List.filterMap_filter]
  refine List.filterMap_congr fun declaration _ => ?_
  cases declaration <;> rfl

end Declaration

/-- Blocks do not change a table: they declare no names and no imports. -/
theorem SymbolTable.ofDeclarations_filter (externCrates : List String)
    (declarations : List Declaration) :
    ofDeclarations externCrates (declarations.filter Declaration.isNoBlock) =
      ofDeclarations externCrates declarations := by
  rw [ofDeclarations, ofDeclarations, List.foldl_filter]
  congr 1
  funext table declaration
  cases declaration <;> rfl

namespace Item

mutual

/-- What is left of an item when only some `impl` blocks in it are kept. -/
def keepImpls (keep : ItemPath → ImplDecl → Bool) (module : ItemPath) : Item → List Item
  | .module decl (some items) =>
    [.module decl (some (keepImplsOfAll keep (module.join decl.name) items))]
  | .impl decl => if keep module decl then [.impl decl] else []
  | .other inner => [.other (keepImplsOfAll keep module inner)]
  | item => [item]

/-- What is left of items when only some `impl` blocks in them are kept. -/
def keepImplsOfAll (keep : ItemPath → ImplDecl → Bool) (module : ItemPath) :
    List Item → List Item
  | [] => []
  | item :: items => item.keepImpls keep module ++ keepImplsOfAll keep module items

end

/-- The declarations of items one after the other. -/
theorem declarationsOfAll_append (context : ScanContext) (module : ItemPath)
    (items items' : List Item) :
    declarationsOfAll context module (items ++ items') =
      declarationsOfAll context module items ++ declarationsOfAll context module items' := by
  induction items with
  | nil => rfl
  | cons item items ih => rw [List.cons_append, declarationsOfAll, ih, declarationsOfAll,
      List.append_assoc]

/-- The blocks of items one after the other. -/
theorem implsOfAll_append (module : ItemPath) (items items' : List Item) :
    implsOfAll module (items ++ items') = implsOfAll module items ++ implsOfAll module items' := by
  induction items with
  | nil => rfl
  | cons item items ih => rw [List.cons_append, implsOfAll, ih, implsOfAll, List.append_assoc]

section Keep

variable (keep : ItemPath → ImplDecl → Bool) (context : ScanContext)

mutual

/-- What is left of an item declares the same apart from blocks. -/
theorem filter_declarations_keepImpls (module : ItemPath) (item : Item) :
    (declarationsOfAll context module (item.keepImpls keep module)).filter Declaration.isNoBlock =
      (item.declarations context module).filter Declaration.isNoBlock := by
  have hsingle (other : Item) : declarationsOfAll context module [other] =
      other.declarations context module := by
    rw [declarationsOfAll, declarationsOfAll, List.append_nil]
  cases item with
  | module decl content =>
    cases content with
    | none => exact congrArg (List.filter _) (hsingle (.module decl none))
    | some items =>
      have hinside := filter_declarationsOfAll_keepImpls (module.join decl.name) items
      rw [keepImpls, hsingle, declarations, declarations]
      split
      · rfl
      · exact congrArg (_ :: ·) hinside
  | impl decl =>
    have hnothing : ((Item.impl decl).declarations context module).filter Declaration.isNoBlock =
        [] := by
      rw [declarations]
      cases decl.block? module context.dispatcher <;> rfl
    rw [keepImpls, hnothing]
    split
    · rw [hsingle, hnothing]
    · rfl
  | other inner =>
    have hinside := filter_declarationsOfAll_keepImpls module inner
    rw [keepImpls, hsingle, declarations, declarations]
    exact hinside
  | type decl => exact congrArg (List.filter _) (hsingle (.type decl))
  | name declared => exact congrArg (List.filter _) (hsingle (.name declared))
  | use attributes rooted tree =>
    exact congrArg (List.filter _) (hsingle (.use attributes rooted tree))
  | function => exact congrArg (List.filter _) (hsingle .function)

/-- What is left of items declares the same apart from blocks. -/
theorem filter_declarationsOfAll_keepImpls (module : ItemPath) (items : List Item) :
    (declarationsOfAll context module (keepImplsOfAll keep module items)).filter
        Declaration.isNoBlock =
      (declarationsOfAll context module items).filter Declaration.isNoBlock := by
  cases items with
  | nil => rfl
  | cons item items =>
    rw [keepImplsOfAll, declarationsOfAll_append, declarationsOfAll, List.filter_append,
      List.filter_append, filter_declarations_keepImpls module item,
      filter_declarationsOfAll_keepImpls module items]

end

mutual

/-- What is left of an item has the kept blocks. -/
theorem impls_keepImpls (module : ItemPath) (item : Item) :
    implsOfAll module (item.keepImpls keep module) =
      (item.impls module).filter fun (place, decl) => keep place decl := by
  have hsingle (other : Item) : implsOfAll module [other] = other.impls module := by
    rw [implsOfAll, implsOfAll, List.append_nil]
  cases item with
  | module decl content =>
    cases content with
    | none => rfl
    | some items =>
      have hinside := implsOfAll_keepImpls (module.join decl.name) items
      rw [keepImpls, hsingle, impls, impls]
      split
      · rfl
      · exact hinside
  | impl decl =>
    rw [keepImpls, impls]
    cases hkeep : keep module decl <;> simp [hkeep, implsOfAll, impls]
  | other inner =>
    have hinside := implsOfAll_keepImpls module inner
    rw [keepImpls, hsingle, impls, impls]
    exact hinside
  | type decl => rfl
  | name declared => rfl
  | use attributes rooted tree => rfl
  | function => rfl

/-- What is left of items has the kept blocks, at the places where they stood. -/
theorem implsOfAll_keepImpls (module : ItemPath) (items : List Item) :
    implsOfAll module (keepImplsOfAll keep module items) =
      (implsOfAll module items).filter fun (place, decl) => keep place decl := by
  cases items with
  | nil => rfl
  | cons item items =>
    rw [keepImplsOfAll, implsOfAll_append, implsOfAll, List.filter_append,
      impls_keepImpls module item, implsOfAll_keepImpls module items]

end

end Keep

end Item

/-- What is left of a source when only some `impl` blocks in it are kept. -/
def Source.keepImpls (keep : ItemPath → ImplDecl → Bool) (source : Source) : Source :=
  ⟨source.module, Item.keepImplsOfAll keep source.module source.items⟩

namespace Feed

variable {settings : Settings} {sources : List Source} {keep : ItemPath → ImplDecl → Bool}

/-- What is left of sources declares the same apart from blocks. -/
theorem filter_allDeclarations_keepImpls :
    (allDeclarations settings (sources.map (·.keepImpls keep))).filter Declaration.isNoBlock =
      (allDeclarations settings sources).filter Declaration.isNoBlock := by
  rw [allDeclarations, allDeclarations, List.flatMap_map, List.filter_flatMap, List.filter_flatMap]
  refine List.flatMap_congr fun source _ => ?_
  rw [Source.declarations, Source.declarations, List.filter_append, List.filter_append]
  exact congrArg _ (Item.filter_declarationsOfAll_keepImpls keep _ _ _)

/-- What is left of sources has the same table, whichever blocks are kept. -/
theorem symbols_keepImpls :
    (ofSources settings (sources.map (·.keepImpls keep))).symbols =
      (ofSources settings sources).symbols := by
  have htable (sources : List Source) : (ofSources settings sources).symbols =
      .ofDeclarations settings.externCrates
        ((allDeclarations settings sources).filter Declaration.isNoBlock) :=
    (SymbolTable.ofDeclarations_filter _ _).symm
  rw [htable, htable, filter_allDeclarations_keepImpls]

/-- What is left of sources gives the same constructors to a type to which only kept blocks
belong. -/
theorem attached_keepImpls {target : ItemPath}
    (hkeep : ∀ place decl, (place, decl) ∈ sources.flatMap Source.impls → keep place decl = false →
      (ofSources settings sources).symbols.resolveItem? place decl.selfType ≠ some target) :
    attached settings (sources.map (·.keepImpls keep)) target =
      attached settings sources target := by
  have himpls : (sources.map (·.keepImpls keep)).flatMap Source.impls =
      (sources.flatMap Source.impls).filter fun (place, decl) => keep place decl := by
    rw [List.flatMap_map, List.filter_flatMap]
    exact List.flatMap_congr fun source _ => Item.implsOfAll_keepImpls keep _ _
  rw [attached, attached, symbols_keepImpls, himpls, List.filter_filter]
  congr 1
  refine List.filter_congr fun found hfound => ?_
  obtain ⟨place, decl⟩ := found
  dsimp only
  cases hbelongs : decl.belongsTo (ofSources settings sources).symbols place target with
  | false => rw [Bool.false_and]
  | true =>
    rw [Bool.true_and]
    rw [ImplDecl.belongsTo, Bool.and_eq_true, beq_iff_eq] at hbelongs
    by_contra hdropped
    exact hkeep place decl hfound (Bool.eq_false_iff.mpr hdropped) hbelongs.2

/-- Sources without blocks that belong to no candidate have the same candidates. -/
theorem candidates_keepImpls
    (hkeep : ∀ place decl, (place, decl) ∈ sources.flatMap Source.impls → keep place decl = false →
      ∀ c ∈ (ofSources settings sources).candidates,
        (ofSources settings sources).symbols.resolveItem? place decl.selfType ≠ some c.name) :
    (ofSources settings (sources.map (·.keepImpls keep))).candidates =
      (ofSources settings sources).candidates := by
  have htypes : (allDeclarations settings (sources.map (·.keepImpls keep))).filterMap
      Declaration.type? = (allDeclarations settings sources).filterMap Declaration.type? := by
    rw [← Declaration.filterMap_type?_filter, filter_allDeclarations_keepImpls,
      Declaration.filterMap_type?_filter]
  rw [candidates_eq_map, candidates_eq_map, htypes]
  refine List.map_congr_left fun type htype => ?_
  have hc : candidate (ofSources settings sources).symbols (found settings sources)
      settings.dispatcher type ∈ (ofSources settings sources).candidates :=
    List.mem_map_of_mem htype
  have hc' : candidate (ofSources settings (sources.map (·.keepImpls keep))).symbols
      (found settings (sources.map (·.keepImpls keep))) settings.dispatcher type ∈
        (ofSources settings (sources.map (·.keepImpls keep))).candidates :=
    List.mem_map_of_mem (htypes ▸ htype)
  have hattached : attached settings (sources.map (·.keepImpls keep)) type.path =
      attached settings sources type.path :=
    attached_keepImpls fun place decl hmem hdropped => hkeep place decl hmem hdropped _ hc
  have hsame := (constructors_eq_attached hc').trans
    (hattached.trans (constructors_eq_attached hc).symm)
  simp only [candidate] at hsame ⊢
  rw [hsame, symbols_keepImpls]

/-- The blocks of sources are those that stand in one of them, at any depth, outside modules for
tests. -/
theorem mem_flatMap_impls_iff {place : ItemPath} {decl : ImplDecl} :
    (place, decl) ∈ sources.flatMap Source.impls ↔
      ∃ source ∈ sources, Occurs source.module source.items place (.impl decl) := by
  rw [List.mem_flatMap]
  exact exists_congr fun source => and_congr_right fun _ => Item.mem_implsOfAll_iff_occurs

/-- A candidate has the accepted functions of all plain blocks whose type resolves to it, in feed
order, and so have all candidates of the same path. A block whose type resolves to no candidate
gives nothing: without such blocks the candidates are the same. -/
theorem constructors_of_blocks (settings : Settings) (sources : List Source) :
    (∀ place decl, (place, decl) ∈ sources.flatMap Source.impls ↔
      ∃ source ∈ sources, Occurs source.module source.items place (.impl decl)) ∧
    (∀ c ∈ (ofSources settings sources).candidates,
      c.constructors = attached settings sources c.name) ∧
    (∀ c ∈ (ofSources settings sources).candidates,
      ∀ c' ∈ (ofSources settings sources).candidates, c.name = c'.name →
        c.constructors = c'.constructors) ∧
    ∀ keep : ItemPath → ImplDecl → Bool,
      (∀ place decl, (place, decl) ∈ sources.flatMap Source.impls → keep place decl = false →
        ∀ c ∈ (ofSources settings sources).candidates,
          (ofSources settings sources).symbols.resolveItem? place decl.selfType ≠ some c.name) →
      (ofSources settings (sources.map (·.keepImpls keep))).candidates =
        (ofSources settings sources).candidates := by
  refine ⟨fun place decl => mem_flatMap_impls_iff, fun c hc => constructors_eq_attached hc,
    fun c hc c' hc' hname => ?_, fun keep hkeep => candidates_keepImpls hkeep⟩
  rw [constructors_eq_attached hc, constructors_eq_attached hc', hname]

/-! ## Blocks that give nothing -/

/-- A module with a service and with a block for a type that nobody declares. -/
def strayBlock : List Source := [⟨⟨"crate::acc"⟩, [
  .impl ⟨[], false, false, .path false [.mk "Missing" .none],
    [⟨[], .everyone, "new", false, false, false, false, [],
      some (.path false [.mk "Self" .none])⟩]⟩,
  .type ⟨.struct, [], .everyone, "Svc", by decide, false⟩]⟩]

/-- A service that is declared twice, with a block in its own module and one in a module before. -/
def twoBlocks : List Source :=
  let block (path : List String) (name : String) : Item :=
    .impl ⟨[], false, false, .path false (path.map (.mk · .none)),
      [⟨[], .everyone, name, false, false, false, false, [],
        some (.path false [.mk "Self" .none])⟩]⟩
  let svc : Item := .type ⟨.struct, [], .everyone, "Svc", by decide, false⟩
  [⟨⟨"crate::bus"⟩, [block ["crate", "acc", "Svc"] "open"]⟩,
    ⟨⟨"crate::acc"⟩, [block ["Svc"] "new", svc, svc]⟩]

/-- The module has the same candidates without its block. Where two blocks belong to a service, it
has the functions of both, in the order of the modules, and so has its namesake. -/
theorem candidates_strayBlock :
    ((ofSources {} (strayBlock.map (·.keepImpls fun _ _ => false))).candidates =
        (ofSources {} strayBlock).candidates ∧
      (ofSources {} strayBlock).candidates.map (·.name.text) = ["crate::acc::Svc"]) ∧
    (ofSources {} twoBlocks).candidates.map (·.name.text) = ["crate::acc::Svc", "crate::acc::Svc"] ∧
      (∀ c ∈ (ofSources {} twoBlocks).candidates, c.constructors.map (·.name) = ["open", "new"]) ∧
      ∀ c ∈ (ofSources {} twoBlocks).candidates, ∀ c' ∈ (ofSources {} twoBlocks).candidates,
        c.constructors = c'.constructors := by
  have hstray : ∀ place decl, (place, decl) ∈ strayBlock.flatMap Source.impls → false = false →
      ∀ c ∈ (ofSources {} strayBlock).candidates,
        (ofSources {} strayBlock).symbols.resolveItem? place decl.selfType ≠ some c.name := by
    intro place decl hmem _ c _
    have hunknown : (ofSources {} strayBlock).symbols.resolveItem? ⟨"crate::acc"⟩
        (.path false [.mk "Missing" .none]) = none := by decide +kernel
    obtain ⟨rfl, rfl⟩ := Prod.mk.inj (List.mem_singleton.mp hmem)
    rw [hunknown]
    exact nofun
  have hnames : (ofSources {} twoBlocks).candidates.map (·.name.text) =
      ["crate::acc::Svc", "crate::acc::Svc"] := by decide +kernel
  have hname : ∀ c ∈ (ofSources {} twoBlocks).candidates, c.name = ⟨"crate::acc::Svc"⟩ := by
    intro c hc
    have hmem := List.mem_map_of_mem (f := (·.name.text)) hc
    rw [hnames] at hmem
    exact congrArg ItemPath.mk (by simpa using hmem)
  have hattached : (attached {} twoBlocks ⟨"crate::acc::Svc"⟩).map (·.name) = ["open", "new"] := by
    decide +kernel
  obtain ⟨-, hconstructors, hsame, -⟩ := constructors_of_blocks {} twoBlocks
  refine ⟨⟨(constructors_of_blocks {} strayBlock).2.2.2 _ hstray, by decide +kernel⟩, hnames,
    fun c hc => ?_, fun c hc c' hc' => hsame c hc c' hc' ((hname c hc).trans (hname c' hc').symm)⟩
  rw [hconstructors c hc, hname c hc, hattached]

/-- What a block, given by its text, would contribute to a type if it stood in a module of a crate
that is given by the texts of its modules: the names of its accepted functions. -/
def contributedIn? (texts : List (ItemPath × String)) (place target : ItemPath) (block : String) :
    Option (List String) := do
  let sources ← texts.mapM fun (module, text) => Source.ofText? module text
  let items ← Item.ofFile? block
  let impls := (Item.implsOfAll place items).filter fun (place, decl) =>
    decl.belongsTo (ofSources {} sources).symbols place target
  return impls.flatMap fun (place, decl) =>
    (decl.accepted place (Settings.dispatcher {})).map (·.name)

/-- A block of a service. -/
def svcBlock : String := "impl Svc \x7b pub fn new(id: u8) -> Self \x7b Svc \x7d \x7d"

/-- A module with the service, where the block stands inside a function. -/
def blockInFunction : List (ItemPath × String) :=
  [(⟨"crate::acc"⟩, "pub struct Svc;\nfn setup() \x7b " ++ svcBlock ++ " \x7d\n")]

/-- A block inside a function is not attached, although its type resolves to the service. -/
theorem constructorsIn?_blockInFunction :
    contributedIn? blockInFunction ⟨"crate::acc"⟩ ⟨"crate::acc::Svc"⟩ svcBlock = some ["new"] ∧
      constructorsIn? blockInFunction = some [("crate::acc::Svc", [])] := by
  decide +kernel

end Feed

end ServiceDispatch
