import Mathlib.Data.List.Forall2
import ServiceDispatch.Proofs.Soundness.Visibilities

/-!
# Who can name a candidate

The symbol table keeps one scope for each module, although the module may be declared many times and
in any order. That scope is one of the declared ones, and it lies under all of them. The generated
function is therefore under the scope in the table exactly if it is under every declared scope, and
what is private does not depend on the order of the sources.
-/

namespace ServiceDispatch

/-! ## Scopes in the table -/

namespace SymbolTable

/-- The scope of a module in the table of declarations is declared there, unless it is the root. -/
theorem scope?_foldl_declare {declarations : List Declaration} {table : SymbolTable}
    {path scope : ItemPath}
    (hscope : (declarations.foldl declare table).scope? path = some scope) :
    table.scope? path = some scope ∨ scope = .root ∨ .module path scope ∈ declarations := by
  induction declarations generalizing table with
  | nil => exact .inl hscope
  | cons declaration rest ih =>
    rcases ih hscope with hafter | hroot | hmem
    · cases declaration with
      | module declared visibleIn =>
        rw [declare, scope?_declareModule] at hafter
        by_cases hpath : path = declared
        · subst hpath
          rw [if_pos rfl, Option.some.injEq, scopeAfter] at hafter
          split at hafter
          · subst hafter
            exact .inr (.inr List.mem_cons_self)
          · cases hbefore : table.scope? path with
            | none =>
              rw [hbefore] at hafter
              exact .inr (.inl hafter.symm)
            | some known =>
              rw [hbefore] at hafter
              exact .inl (congrArg some hafter)
        · rw [if_neg hpath] at hafter
          exact .inl hafter
      | _ => exact .inl hafter
    · exact .inr (.inl hroot)
    · exact .inr (.inr (List.mem_cons_of_mem _ hmem))

/-- The scope of a module in a table is declared, unless it is the root. -/
theorem eq_root_or_mem_of_scope? {externCrates : List String} {declarations : List Declaration}
    {path scope : ItemPath}
    (hscope : (ofDeclarations externCrates declarations).scope? path = some scope) :
    scope = .root ∨ .module path scope ∈ declarations := by
  rcases scope?_foldl_declare hscope with hbefore | hdeclared
  · exact .inl (eq_root_of_scope?_externCrates hbefore).2
  · exact hdeclared

/-- Code can name an item if it is in the item's scope and in the scope of each declaration of a
module on the way to the item. -/
theorem isReachable_ofDeclarations_iff (externCrates : List String)
    {declarations : List Declaration}
    (hdeclarations : ∀ declaration ∈ declarations, declaration.ScopedAbove)
    {item visibleIn source : ItemPath} (hvisible : visibleIn.InCrate) :
    (ofDeclarations externCrates declarations).isReachable item visibleIn source ↔
      source.isUnder visibleIn ∧ ∀ path scope, .module path scope ∈ declarations →
        path ∈ item.ancestors → source.isUnder scope := by
  rw [isReachable, Bool.and_eq_true, List.all_eq_true]
  refine and_congr_right fun hunder => ?_
  constructor
  · intro hall path scope hmem hpath
    obtain ⟨narrow, hnarrow, hscope⟩ := confines_ofDeclarations externCrates hdeclarations hmem
    have hsource := hall path hpath
    rw [hnarrow, Option.all_some] at hsource
    exact ItemPath.isUnder_trans hsource hscope
  · intro hall path hpath
    cases hscope : (ofDeclarations externCrates declarations).scope? path with
    | none => rfl
    | some scope =>
      rw [Option.all_some]
      rcases eq_root_or_mem_of_scope? hscope with rfl | hmem
      · exact ItemPath.isUnder_trans hunder hvisible.isUnder_root
      · exact hall path scope hmem hpath

end SymbolTable

/-! ## Types of a source -/

namespace Item

mutual

/-- The structs and enums that an item of a module declares, with the modules in which they stand,
in source order. -/
def types (module : ItemPath) : Item → List (ItemPath × TypeDecl)
  | .module decl (some items) =>
    if isTestOnly decl.attributes then [] else typesOfAll (module.join decl.name) items
  | .type decl => if isTestOnly decl.attributes then [] else [(module, decl)]
  | .other inner => typesOfAll module inner
  | _ => []

/-- The structs and enums that items of a module declare. -/
def typesOfAll (module : ItemPath) : List Item → List (ItemPath × TypeDecl)
  | [] => []
  | item :: items => item.types module ++ typesOfAll module items

end

mutual

/-- The types among the declarations of an item are its structs and enums. -/
theorem filterMap_type?_declarations (context : ScanContext) (module : ItemPath) (item : Item) :
    (item.declarations context module).filterMap Declaration.type? =
      (item.types module).map fun (place, decl) => decl.declared context place := by
  cases item with
  | module decl content =>
    cases content with
    | none =>
      rw [declarations]
      split <;> rfl
    | some items =>
      have hinside := filterMap_type?_declarationsOfAll context (module.join decl.name) items
      rw [declarations, types]
      split
      · rfl
      · exact hinside
  | type decl =>
    rw [declarations, types]
    split <;> rfl
  | name declared => rfl
  | use attributes rooted tree =>
    have hbindings : ∀ bindings : List Import,
        (bindings.map (Declaration.binding module)).filterMap Declaration.type? = [] := by
      intro bindings
      induction bindings with
      | nil => rfl
      | cons binding bindings ih => exact ih
    rw [declarations]
    split
    · rfl
    · exact hbindings _
  | impl decl =>
    rw [declarations]
    cases decl.block? module context.dispatcher <;> rfl
  | function => rfl
  | other inner => exact filterMap_type?_declarationsOfAll context module inner

/-- The types among the declarations of items are their structs and enums. -/
theorem filterMap_type?_declarationsOfAll (context : ScanContext) (module : ItemPath)
    (items : List Item) :
    (declarationsOfAll context module items).filterMap Declaration.type? =
      (typesOfAll module items).map fun (place, decl) => decl.declared context place := by
  cases items with
  | nil => rfl
  | cons item items =>
    rw [declarationsOfAll, typesOfAll, List.filterMap_append, List.map_append,
      filterMap_type?_declarations context module item,
      filterMap_type?_declarationsOfAll context module items]

end

mutual

/-- A type of an item stands in it, at the place that is listed with it. -/
theorem occurs_of_mem_types (module : ItemPath) (item : Item) (place : ItemPath) (decl : TypeDecl)
    (hmem : (place, decl) ∈ item.types module) : Occurs module [item] place (.type decl) := by
  cases item with
  | module outer content =>
    cases content with
    | none => exact absurd hmem List.not_mem_nil
    | some items =>
      rw [types] at hmem
      split at hmem
      · exact absurd hmem List.not_mem_nil
      · rename_i hcompiled
        have hinside := occurs_of_mem_typesOfAll (module.join outer.name) items place decl hmem
        exact .inModule (List.mem_singleton.mpr rfl) (Bool.eq_false_iff.mpr hcompiled) hinside
  | type other =>
    rw [types] at hmem
    split at hmem
    · exact absurd hmem List.not_mem_nil
    · obtain ⟨rfl, rfl⟩ := Prod.mk.inj (List.mem_singleton.mp hmem)
      exact .here (List.mem_singleton.mpr rfl)
  | other inner =>
    have hinner := occurs_of_mem_typesOfAll module inner place decl hmem
    exact .inItem (List.mem_singleton.mpr rfl) hinner
  | _ => exact absurd hmem List.not_mem_nil

/-- A type of some items stands among them, at the place that is listed with it. -/
theorem occurs_of_mem_typesOfAll (module : ItemPath) (items : List Item) (place : ItemPath)
    (decl : TypeDecl) (hmem : (place, decl) ∈ typesOfAll module items) :
    Occurs module items place (.type decl) := by
  cases items with
  | nil => exact absurd hmem List.not_mem_nil
  | cons item items =>
    rw [typesOfAll, List.mem_append] at hmem
    rcases hmem with hfirst | hrest
    · refine (occurs_of_mem_types module item place decl hfirst).mono ?_
      intro other hother
      rw [List.mem_singleton.mp hother]
      exact List.mem_cons_self
    · exact (occurs_of_mem_typesOfAll module items place decl hrest).mono
        (List.subset_cons_self _ _)

end

end Item

namespace Source

/-- The structs and enums of a source that are not for tests only, in source order. -/
def types (source : Source) : List (ItemPath × TypeDecl) :=
  Item.typesOfAll source.module source.items

/-- The types among the declarations of a source are its structs and enums. -/
theorem filterMap_type?_declarations (source : Source) (context : ScanContext) :
    (source.declarations context).filterMap Declaration.type? =
      source.types.map fun (place, decl) => decl.declared context place := by
  have hheads : ∀ paths : List ItemPath,
      (paths.map (Declaration.module · .root)).filterMap Declaration.type? = [] := by
    intro paths
    induction paths with
    | nil => rfl
    | cons path paths ih => exact ih
  rw [declarations, List.filterMap_append, hheads, List.nil_append,
    Item.filterMap_type?_declarationsOfAll, types]

/-- Whether a source stands in the crate, and all its restricted visibilities, of modules and of
types, name modules above them. -/
def RestrictsToAncestors (source : Source) : Prop :=
  source.IsRegular ∧ ∀ place decl, Occurs source.module source.items place (.type decl) →
    decl.visibility.NamesAncestor place

/-- In a source with no item inside another one all visibilities are written in its own module. -/
theorem restrictsToAncestors_of_flat {source : Source} (hmodule : source.module.InCrate)
    (hflat : ∀ item ∈ source.items,
      (∀ decl content, item ≠ .module decl (some content)) ∧ ∀ inner, item ≠ .other inner)
    (hmodules : ∀ decl content, .module decl content ∈ source.items →
      decl.visibility.NamesAncestor source.module)
    (htypes : ∀ decl, .type decl ∈ source.items → decl.visibility.NamesAncestor source.module) :
    source.RestrictsToAncestors := by
  have hhere {place : ItemPath} {item : Item}
      (hoccurs : Occurs source.module source.items place item) :
      place = source.module ∧ item ∈ source.items := by
    cases hoccurs with
    | here hmem => exact ⟨rfl, hmem⟩
    | inModule hmem => exact absurd rfl ((hflat _ hmem).1 _ _)
    | inItem hmem => exact absurd rfl ((hflat _ hmem).2 _)
  refine ⟨⟨hmodule, fun place decl content hoccurs => ?_⟩, fun place decl hoccurs => ?_⟩
  · obtain ⟨rfl, hmem⟩ := hhere hoccurs
    exact hmodules decl content hmem
  · obtain ⟨rfl, hmem⟩ := hhere hoccurs
    exact htypes decl hmem

end Source

/-! ## Candidates -/

/-- Whether the generated function is in the scope of a struct or an enum, and in the scope of
every module item, not for tests only, that declares a module on the way to it. -/
def InScopes (settings : Settings) (sources : List Source) (place : ItemPath) (decl : TypeDecl) :
    Prop :=
  settings.dispatcher.isUnder (decl.visibility.scope place) ∧
    ∀ source ∈ sources, ∀ site module content,
      Occurs source.module source.items site (.module module content) →
      isTestOnly module.attributes = false →
      site.join module.name ∈ (place.join decl.name).ancestors →
      settings.dispatcher.isUnder (module.visibility.scope site)

/-- The sources in another order have the same scopes, as these are those of all module items. -/
theorem inScopes_perm {settings : Settings} {sources sources' : List Source}
    (hperm : sources.Perm sources') {place : ItemPath} {decl : TypeDecl} :
    InScopes settings sources place decl ↔ InScopes settings sources' place decl := by
  simp only [InScopes, hperm.mem_iff]

namespace Feed

/-- A type is reachable in the table of the sources exactly if the generated function is in all
scopes on the way to it. -/
theorem isReachable_iff_inScopes (settings : Settings) {sources : List Source}
    (hsources : ∀ source ∈ sources, source.RestrictsToAncestors)
    {place : ItemPath} {decl : TypeDecl} (htype : (place, decl) ∈ sources.flatMap Source.types) :
    (ofSources settings sources).symbols.isReachable (place.join decl.name)
        (decl.visibility.scope place) settings.dispatcher ↔
      InScopes settings sources place decl := by
  have hscoped : ∀ declaration ∈ allDeclarations settings sources, declaration.ScopedAbove :=
    scopedAbove_of_mem_allDeclarations fun source hsource => (hsources source hsource).1
  have hvisible : (decl.visibility.scope place).InCrate := by
    obtain ⟨source, hsource, hmem⟩ := List.mem_flatMap.mp htype
    have hoccurs := Item.occurs_of_mem_typesOfAll _ _ _ _ hmem
    obtain ⟨⟨hmodule, -⟩, hnames⟩ := hsources source hsource
    exact ((hnames place decl hoccurs).scope_above (hoccurs.inCrate hmodule)).1
  refine (SymbolTable.isReachable_ofDeclarations_iff settings.externCrates hscoped
    hvisible).trans ?_
  refine and_congr_right fun hunder => ?_
  constructor
  · intro hall source hsource site module content hoccurs hcompiled hpath
    refine hall _ _ (module_mem_allDeclarations_iff.mpr (.inr ?_)) hpath
    exact ⟨source, hsource, site, module, content, hoccurs, hcompiled, rfl, rfl⟩
  · intro hall path scope hmem hpath
    rcases module_mem_allDeclarations_iff.mp hmem with ⟨rfl, -⟩ |
      ⟨source, hsource, site, module, content, hoccurs, hcompiled, rfl, rfl⟩
    · exact ItemPath.isUnder_trans hunder hvisible.isUnder_root
    · exact hall source hsource site module content hoccurs hcompiled hpath

/-- The candidates of sources are their structs and enums, in source order. -/
theorem candidates_ofSources (settings : Settings) (sources : List Source) :
    ∃ found, (ofSources settings sources).candidates =
      (sources.flatMap Source.types).map fun (place, decl) =>
        candidate (ofSources settings sources).symbols found settings.dispatcher
          (decl.declared (.ofSettings settings) place) := by
  have htypes : (allDeclarations settings sources).filterMap Declaration.type? =
      (sources.flatMap Source.types).map fun (place, decl) =>
        decl.declared (.ofSettings settings) place := by
    rw [allDeclarations, List.filterMap_flatMap, List.map_flatMap]
    exact List.flatMap_congr fun source _ => source.filterMap_type?_declarations _
  have hcandidates : (ofSources settings sources).candidates =
      ((allDeclarations settings sources).filterMap Declaration.type?).map
        (candidate (ofSources settings sources).symbols
          (implementations (ofSources settings sources).symbols
            ((allDeclarations settings sources).filterMap Declaration.impl?))
          settings.dispatcher) := rfl
  rw [htypes, List.map_map] at hcandidates
  exact ⟨_, hcandidates⟩

/-- A candidate is private exactly if the generated function is outside a scope on the way to its
struct or enum. Sources in another order have the same private candidates, since the scopes on the
way are the same. The hypothesis excludes restricted visibilities that name a module elsewhere in
the crate, which no compiler accepts; for such scopes the deepest one need not be the narrowest. -/
theorem isPrivate_iff_not_inScopes (settings : Settings) {sources : List Source}
    (hsources : ∀ source ∈ sources, source.RestrictsToAncestors) :
    List.Forall₂ (fun (type : ItemPath × TypeDecl) c =>
        c.name = type.1.join type.2.name ∧
          (c.isPrivate = false ↔ InScopes settings sources type.1 type.2))
      (sources.flatMap Source.types) (ofSources settings sources).candidates ∧
    ∀ sources', sources.Perm sources' →
      ((ofSources settings sources).candidates.map fun c => (c.name, c.isPrivate)).Perm
        ((ofSources settings sources').candidates.map fun c => (c.name, c.isPrivate)) := by
  constructor
  · obtain ⟨found, hcandidates⟩ := candidates_ofSources settings sources
    rw [hcandidates, List.forall₂_map_right_iff, List.forall₂_same]
    intro type htype
    refine ⟨rfl, Iff.trans ?_ (isReachable_iff_inScopes settings hsources htype)⟩
    simp [candidate, TypeDecl.declared]
  · intro sources' hperm
    have hsources' : ∀ source ∈ sources', source.RestrictsToAncestors :=
      fun source hsource => hsources source (hperm.mem_iff.mpr hsource)
    obtain ⟨found, hcandidates⟩ := candidates_ofSources settings sources
    obtain ⟨found', hcandidates'⟩ := candidates_ofSources settings sources'
    rw [hcandidates, hcandidates', List.map_map, List.map_map]
    have htypes := hperm.flatMap_right Source.types
    refine (htypes.map _).trans (List.Perm.of_eq (List.map_congr_left fun type htype => ?_))
    have hreachable := isReachable_iff_inScopes settings hsources (htypes.mem_iff.mpr htype)
    have hreachable' := isReachable_iff_inScopes settings hsources' htype
    have hsame := Bool.eq_iff_iff.mpr
      (hreachable.trans ((inScopes_perm hperm).trans hreachable'.symm))
    simp only [Function.comp, candidate, TypeDecl.declared, Prod.mk.injEq, true_and]
    exact congrArg _ hsame

/-! ## Modules of files -/

/-- A struct that is visible everywhere. -/
def event : TypeDecl := ⟨.struct, [], .everyone, "Event", by decide, false⟩

/-- A private module and, later, its file. -/
def declaredTwice : List Source := [
  ⟨⟨"crate::hos::kernel"⟩, [.module ⟨[], .inherited, "objects", by decide⟩ none]⟩,
  ⟨⟨"crate::hos::kernel::objects"⟩, [.type event]⟩]

/-- No visibility of these sources is restricted. -/
theorem declaredTwice_restrictsToAncestors :
    ∀ source ∈ declaredTwice, source.RestrictsToAncestors := by
  intro source hsource
  simp only [declaredTwice, List.mem_cons, List.not_mem_nil, or_false] at hsource
  rcases hsource with rfl | rfl
  · refine Source.restrictsToAncestors_of_flat ⟨["hos", "kernel"], by decide, by decide⟩
      (by simp) ?_ (by simp)
    intro decl content hmem
    obtain ⟨rfl, -⟩ := Item.module.inj (List.mem_singleton.mp hmem)
    exact fun _ h => nomatch h
  · refine Source.restrictsToAncestors_of_flat ⟨["hos", "kernel", "objects"], by decide, by decide⟩
      (by simp) (by simp) ?_
    intro decl hmem
    obtain rfl := Item.type.inj (List.mem_singleton.mp hmem)
    exact fun _ h => nomatch h

/-- A struct that is visible in `crate::hos`. -/
def login : TypeDecl := ⟨.struct, [], .within ["crate", "hos"], "Login", by decide, false⟩

/-- A struct that is visible in the module above its own one. -/
def journal : TypeDecl := ⟨.struct, [], .within ["super"], "Journal", by decide, false⟩

/-- The file of a module, and the module item, which restricts it to the module above. -/
def restricted : List Source := [
  ⟨.ofNames ["hos", "services", "acc", "users"], [.type login, .type journal]⟩,
  ⟨.ofNames ["hos", "services", "acc"], [.module ⟨[], .within ["super"], "users", by decide⟩ none]⟩]

/-- The restricted visibilities of these sources name modules above their own ones. -/
theorem restricted_restrictsToAncestors : ∀ source ∈ restricted, source.RestrictsToAncestors := by
  have hhos : Visibility.Names ["hos", "services", "acc", "users"] login.visibility ["hos"] :=
    .fromRoot (by decide)
  have hacc : Visibility.Names (["hos", "services", "acc"] ++ ["users"]) journal.visibility
      ["hos", "services", "acc"] :=
    .fromParent rfl (by simp) List.not_mem_nil
  have hservices : Visibility.Names (["hos", "services"] ++ ["acc"]) (.within ["super"])
      ["hos", "services"] :=
    .fromParent rfl (by simp) List.not_mem_nil
  intro source hsource
  simp only [restricted, List.mem_cons, List.not_mem_nil, or_false] at hsource
  rcases hsource with rfl | rfl
  · refine Source.restrictsToAncestors_of_flat ⟨_, by decide, rfl⟩ (by simp) (by simp) ?_
    intro decl hmem
    simp only [List.mem_cons, Item.type.injEq, List.not_mem_nil, or_false] at hmem
    rcases hmem with rfl | rfl
    · exact (hhos.namesAncestor_iff (by decide) (by decide)).mpr (by decide)
    · exact (hacc.namesAncestor_iff (by decide) (by decide)).mpr (by decide)
  · refine Source.restrictsToAncestors_of_flat ⟨_, by decide, rfl⟩ (by simp) ?_ (by simp)
    intro decl content hmem
    obtain ⟨rfl, -⟩ := Item.module.inj (List.mem_singleton.mp hmem)
    exact (hservices.namesAncestor_iff (by decide) (by decide)).mpr (by decide)

/-- The file, which is visible everywhere, does not widen the private module, whichever of them
comes first. In a module that is restricted to the one above, the generated function can name the
struct that is visible in all of `crate::hos`, and not the one that is restricted to a module beside
its own. -/
theorem isPrivate_declaredTwice :
    ((∀ source ∈ declaredTwice, source.RestrictsToAncestors) ∧
      ¬ InScopes {} declaredTwice ⟨"crate::hos::kernel::objects"⟩ event ∧
      (⟨"crate::hos::kernel::objects::Event"⟩, true) ∈
        (ofSources {} declaredTwice.reverse).candidates.map fun c => (c.name, c.isPrivate)) ∧
    (∀ source ∈ restricted, source.RestrictsToAncestors) ∧
      InScopes {} restricted (.ofNames ["hos", "services", "acc", "users"]) login ∧
      ¬ InScopes {} restricted (.ofNames ["hos", "services", "acc", "users"]) journal ∧
      (⟨"crate::hos::services::acc::users::Login"⟩, false) ∈
        (ofSources {} restricted.reverse).candidates.map fun c => (c.name, c.isPrivate) := by
  have htwice : ((ofSources {} declaredTwice).candidates.map fun c => (c.name, c.isPrivate)) =
      [(⟨"crate::hos::kernel::objects::Event"⟩, true)] := by
    decide +kernel
  have hrestricted : ((ofSources {} restricted).candidates.map fun c => (c.name, c.isPrivate)) =
      [(⟨"crate::hos::services::acc::users::Login"⟩, false),
        (⟨"crate::hos::services::acc::users::Journal"⟩, true)] := by
    decide +kernel
  constructor
  · obtain ⟨htypes, horder⟩ := isPrivate_iff_not_inScopes {} declaredTwice_restrictsToAncestors
    refine ⟨declaredTwice_restrictsToAncestors, ?_, ?_⟩
    · obtain ⟨c, cs, ⟨-, hscopes⟩, -, heq⟩ := List.forall₂_cons_left_iff.mp htypes
      rw [heq, List.map_cons] at htwice
      have hprivate : c.isPrivate = true := (Prod.mk.inj (List.cons.inj htwice).1).2
      intro hin
      exact absurd (hscopes.mpr hin) (by simp [hprivate])
    · refine (horder _ (List.reverse_perm _).symm).mem_iff.mp ?_
      rw [htwice]
      exact List.mem_singleton.mpr rfl
  · obtain ⟨htypes, horder⟩ := isPrivate_iff_not_inScopes {} restricted_restrictsToAncestors
    refine ⟨restricted_restrictsToAncestors, ?_⟩
    obtain ⟨first, rest, ⟨-, hlogin⟩, hrest, heq⟩ := List.forall₂_cons_left_iff.mp htypes
    obtain ⟨second, last, ⟨-, hjournal⟩, -, hsplit⟩ := List.forall₂_cons_left_iff.mp hrest
    have hfound := hrestricted
    rw [heq, hsplit, List.map_cons, List.map_cons] at hfound
    obtain ⟨hfirst, hsecond⟩ := List.cons.inj hfound
    have hopen : first.isPrivate = false := (Prod.mk.inj hfirst).2
    have hclosed : second.isPrivate = true := (Prod.mk.inj (List.cons.inj hsecond).1).2
    refine ⟨hlogin.mp hopen, fun hin => ?_, ?_⟩
    · exact absurd (hjournal.mpr hin) (by simp [hclosed])
    · refine (horder _ (List.reverse_perm _).symm).mem_iff.mp ?_
      rw [hrestricted]
      exact List.mem_cons_self

end Feed

end ServiceDispatch
