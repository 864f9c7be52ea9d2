import ServiceDispatch.CrateScan
import ServiceDispatch.Proofs.Feed.TestOnly
import ServiceDispatch.Proofs.Reading.Numerals
import ServiceDispatch.Proofs.Resolution.Elsewhere

/-!
# Resolved types of a crate

All modules around an item are declared, in whatever way its source and the module items in it are
given. If names are identifiers, a resolved type therefore means the same in every module of the
crate.
-/

namespace ServiceDispatch

/-! ## Names in sources -/

/-- Whether an item declares and imports names of a kind only. -/
def Item.NamedBy (P : String → Prop) : Item → Prop
  | .module decl _ => P decl.name
  | .type decl => P decl.name
  | .name declared => P declared
  | .use _ rooted tree => ∀ binding ∈ tree.bindings rooted [], binding.NamedBy P
  | _ => True

/-- Whether a source stands in a module of the crate, and the names in its path and of all items in
it are of a kind. -/
structure Source.NamedBy (P : String → Prop) (source : Source) : Prop where
  module : ∃ names, (∀ name ∈ names, P name) ∧ source.module = .ofNames names
  items : ∀ place item, Occurs source.module source.items place item → item.NamedBy P

/-- An item stands in the module of its source or in one that a module item declares. -/
theorem Occurs.place_eq_or {module place : ItemPath} {items : List Item} {item : Item}
    (hoccurs : Occurs module items place item) :
    place = module ∨ ∃ outer decl content, Occurs module items outer (.module decl content) ∧
      isTestOnly decl.attributes = false ∧ place = outer.join decl.name := by
  induction hoccurs with
  | here hmem => exact .inl rfl
  | @inModule module place items content item decl hmem hcompiled hcontent ih =>
    rcases ih with rfl | ⟨outer, inner, inside, hinner, hcompiled', rfl⟩
    · exact .inr ⟨module, decl, some content, .here hmem, hcompiled, rfl⟩
    · exact .inr ⟨outer, inner, inside, .inModule hmem hcompiled hinner, hcompiled', rfl⟩
  | inItem hmem hinner ih =>
    rcases ih with rfl | ⟨outer, decl, content, hdecl, hcompiled, rfl⟩
    · exact .inl rfl
    · exact .inr ⟨outer, decl, content, .inItem hmem hdecl, hcompiled, rfl⟩

/-- A path of identifiers and all paths above it are the root or a member of one of them. -/
theorem ItemPath.eq_root_or_join_of_mem_ancestors {names : List String}
    (hnames : ∀ name ∈ names, IsIdentifier name) {p : ItemPath}
    (hp : p ∈ (ofNames names).ancestors ++ [ofNames names]) :
    p = .root ∨ ∃ q ∈ (ofNames names).ancestors, ∃ name, IsIdentifier name ∧ p = q.join name := by
  induction names using List.reverseRecOn with
  | nil =>
    rw [show (ofNames []).ancestors = [] from ancestors_root, List.nil_append] at hp
    exact .inl (List.mem_singleton.mp hp)
  | append_singleton names name ih =>
    have hfront : ∀ other ∈ names, IsIdentifier other :=
      fun other h => hnames other (List.mem_append_left _ h)
    have hname : IsIdentifier name := hnames name (by simp)
    have hcrate : (ofNames names).InCrate := ⟨names, fun other h => (hfront other h).isSegment, rfl⟩
    rw [ofNames_append, hcrate.ancestors_join hname.isSegment] at hp ⊢
    rcases List.mem_append.mp hp with hp | hp
    · rcases ih hfront (by simpa [or_comm] using hp) with hroot | ⟨q, hq, other, hother, heq⟩
      · exact .inl hroot
      · exact .inr ⟨q, List.mem_cons_of_mem _ hq, other, hother, heq⟩
    · exact .inr ⟨_, List.mem_cons_self, name, hname, List.mem_singleton.mp hp⟩

/-- A declared name without a type comes from such an item. -/
theorem Item.of_name_mem_ownDeclarations {context : ScanContext} {place path : ItemPath}
    {item : Item} (hown : .name path ∈ item.ownDeclarations context place) :
    ∃ declared, item = .name declared ∧ path = place.join declared := by
  cases item with
  | name declared => exact ⟨declared, rfl, Declaration.name.inj (List.mem_singleton.mp hown)⟩
  | _ => simp [ownDeclarations, declarations] at hown

/-- An import comes from a use item, and is one of the bindings of its tree. -/
theorem Item.of_binding_mem_ownDeclarations {context : ScanContext} {place module : ItemPath}
    {binding : Import} {item : Item}
    (hown : .binding module binding ∈ item.ownDeclarations context place) :
    ∃ attributes rooted tree, item = .use attributes rooted tree ∧
      binding ∈ tree.bindings rooted [] := by
  cases item with
  | use attributes rooted tree =>
    have hbinding : binding ∈ tree.bindings rooted [] := by
      change _ ∈ Item.declarations context place (.use attributes rooted tree) at hown
      rw [declarations] at hown
      split at hown
      · exact absurd hown List.not_mem_nil
      · obtain ⟨other, hother, heq⟩ := List.mem_map.mp hown
        rwa [← (Declaration.binding.inj heq).2]
    exact ⟨attributes, rooted, tree, rfl, hbinding⟩
  | _ => simp [ownDeclarations, declarations] at hown

namespace Feed

open SymbolTable (itemOf?)

variable {settings : Settings} {sources : List Source}

/-- The module of a source, and each one in which an item of it stands, is declared. -/
theorem hasModule_place {source : Source} (hsource : source ∈ sources) {place : ItemPath}
    {item : Item} (hoccurs : Occurs source.module source.items place item) :
    (ofSources settings sources).symbols.hasModule place := by
  refine SymbolTable.hasModule_ofDeclarations_iff.mpr (.inr ?_)
  rcases hoccurs.place_eq_or with rfl | ⟨outer, decl, content, hdecl, hcompiled, rfl⟩
  · exact ⟨.root, module_mem_allDeclarations_iff.mpr (.inl ⟨rfl, source, hsource, by simp⟩)⟩
  · exact ⟨_, module_mem_allDeclarations_iff.mpr
      (.inr ⟨source, hsource, outer, decl, content, hdecl, hcompiled, rfl, rfl⟩)⟩

/-- A declared module is the root or a member of a declared module, if names are identifiers. The
path of a source declares all modules above it, a module item only its own. -/
theorem eq_root_or_isMember_of_hasModule
    (hsources : ∀ source ∈ sources, source.NamedBy IsIdentifier) {p : ItemPath}
    (hp : (ofSources settings sources).symbols.hasModule p) :
    p = .root ∨ (ofSources settings sources).symbols.IsMember p := by
  rcases SymbolTable.hasModule_ofDeclarations_iff.mp hp with hroot | ⟨scope, hmem⟩
  · exact .inl hroot
  · rcases module_mem_allDeclarations_iff.mp hmem with ⟨-, source, hsource, hhead⟩ |
      ⟨source, hsource, place, decl, content, hoccurs, -, rfl, -⟩
    · obtain ⟨names, hnames, hmodule⟩ := (hsources source hsource).module
      rw [hmodule] at hhead
      rcases ItemPath.eq_root_or_join_of_mem_ancestors hnames hhead with
        hroot | ⟨q, hq, name, hname, rfl⟩
      · exact .inl hroot
      · refine .inr ⟨q, name, SymbolTable.hasModule_ofDeclarations_iff.mpr (.inr ?_), hname, rfl⟩
        refine ⟨.root, module_mem_allDeclarations_iff.mpr (.inl ⟨rfl, source, hsource, ?_⟩)⟩
        rw [hmodule]
        exact List.mem_append_left _ hq
    · exact .inr ⟨place, decl.name, hasModule_place hsource hoccurs,
        (hsources source hsource).items place _ hoccurs, rfl⟩

/-- A declared item is a member of the module in which an item of a source stands, by a name of the
kind of the sources. -/
theorem exists_place_of_hasItem {P : String → Prop}
    (hsources : ∀ source ∈ sources, source.NamedBy P) {p : ItemPath}
    (hp : (ofSources settings sources).symbols.hasItem p) :
    ∃ source ∈ sources, ∃ place item name, Occurs source.module source.items place item ∧
      P name ∧ p = place.join name := by
  obtain ⟨declaration, hmem, hitem⟩ := SymbolTable.hasItem_ofDeclarations_iff.mp hp
  have hnomodule : ∀ path visibleIn, declaration ≠ .module path visibleIn := by
    rintro path visibleIn rfl
    exact nomatch hitem
  obtain ⟨source, hsource, place, item, hoccurs, hown⟩ :=
    occurs_of_mem_allDeclarations hmem hnomodule
  have hnamed := (hsources source hsource).items place item hoccurs
  refine ⟨source, hsource, place, item, ?_⟩
  cases declaration with
  | type declared =>
    obtain ⟨decl, rfl, -, rfl⟩ := Item.of_type_mem_ownDeclarations hown
    exact ⟨decl.name, hoccurs, hnamed, (Option.some.inj hitem).symm⟩
  | name path =>
    obtain ⟨name, rfl, rfl⟩ := Item.of_name_mem_ownDeclarations hown
    exact ⟨name, hoccurs, hnamed, (Option.some.inj hitem).symm⟩
  | _ => exact nomatch hitem

/-- A declared item is a member of a declared module, if names are identifiers. -/
theorem isMember_of_hasItem (hsources : ∀ source ∈ sources, source.NamedBy IsIdentifier)
    {p : ItemPath} (hp : (ofSources settings sources).symbols.hasItem p) :
    (ofSources settings sources).symbols.IsMember p := by
  obtain ⟨source, hsource, place, item, name, hoccurs, hname, rfl⟩ :=
    exists_place_of_hasItem hsources hp
  exact ⟨place, name, hasModule_place hsource hoccurs, hname, rfl⟩

/-- The table of sources with identifiers as names is connected. -/
theorem connected_ofSources (hsources : ∀ source ∈ sources, source.NamedBy IsIdentifier) :
    (ofSources settings sources).symbols.Connected where
  modules := fun _ => eq_root_or_isMember_of_hasModule hsources
  items := fun _ => isMember_of_hasItem hsources
  imports := by
    intro i hi
    have hmem := SymbolTable.mem_imports_ofDeclarations_iff.mp hi
    obtain ⟨source, hsource, place, item, hoccurs, hown⟩ :=
      occurs_of_mem_allDeclarations hmem (fun _ _ h => nomatch h)
    obtain ⟨attributes, rooted, tree, rfl, hbinding⟩ := Item.of_binding_mem_ownDeclarations hown
    exact (hsources source hsource).items place _ hoccurs i.binding hbinding

/-- A type that resolves in one module of a crate is read from its text as a type that resolves to
the same text in every other module. The hypotheses exclude names that are no identifiers, such as
that of a file called like a keyword; declarations and imports under the name of a primitive type,
which would mean something else in their own module; and lengths and constants whose printed text is
not read as what they are. -/
theorem resolveTy_elsewhere (hsources : ∀ source ∈ sources, source.NamedBy IsIdentifier)
    (hprimitive : ∀ name ∈ primitiveTypes, (ofSources settings sources).symbols.Spares name)
    {scope : ItemPath} (hscope : scope.InCrate) {t : Ty} (ht : ∀ part ∈ t.parts, part.IsLegible)
    {r : String} (hr : (ofSources settings sources).symbols.resolveTy scope t = .ok r) :
    ∃ t', Ty.ofText? r = some t' ∧ ∀ scope' : ItemPath, scope'.InCrate →
      (ofSources settings sources).symbols.resolveTy scope' t' = .ok r :=
  (connected_ofSources hsources).resolveTy_written hprimitive hscope ht hr

/-! ## Two modules -/

/-- A module with two types, and one that imports them and has a module in it. -/
def importedIds : List Source := [
  ⟨⟨"crate::ids"⟩, [
    .type ⟨.struct, [], .everyone, "UserId", by decide, false⟩,
    .type ⟨.struct, [], .everyone, "Ring", by decide, true⟩]⟩,
  ⟨⟨"crate::acc"⟩, [
    .use [] false (.path "super" (.path "ids" .glob)),
    .module ⟨[], .inherited, "inner", by decide⟩ (some [])]⟩]

/-- The names in both modules are identifiers. -/
theorem namedBy_importedIds : ∀ source ∈ importedIds, source.NamedBy IsIdentifier := by
  have hbindings : ∀ binding ∈ (UseTree.path "super" (.path "ids" .glob)).bindings false [],
      binding.NamedBy IsIdentifier := by
    intro binding hbinding
    obtain rfl := List.mem_singleton.mp hbinding
    refine ⟨?_, by decide, ?_⟩
    · exact fun name h => nomatch h
    · exact fun h => nomatch h
  intro source hsource
  simp only [importedIds, List.mem_cons, List.not_mem_nil, or_false] at hsource
  rcases hsource with rfl | rfl
  · refine ⟨⟨["ids"], by decide, rfl⟩, fun place item hoccurs => ?_⟩
    cases hoccurs with
    | here hmem =>
      simp only [List.mem_cons, List.not_mem_nil, or_false] at hmem
      rcases hmem with rfl | rfl
      · exact (by decide : IsIdentifier "UserId")
      · exact (by decide : IsIdentifier "Ring")
    | inModule hmem => simp at hmem
    | inItem hmem => simp at hmem
  · refine ⟨⟨["acc"], by decide, rfl⟩, fun place item hoccurs => ?_⟩
    cases hoccurs with
    | here hmem =>
      simp only [List.mem_cons, List.not_mem_nil, or_false] at hmem
      rcases hmem with rfl | rfl
      · exact hbindings
      · exact (by decide : IsIdentifier "inner")
    | inModule hmem hcompiled hcontent =>
      simp only [List.mem_cons, List.not_mem_nil, or_false, reduceCtorEq, false_or,
        Item.module.injEq, Option.some.injEq] at hmem
      obtain ⟨-, rfl⟩ := hmem
      cases hcontent with
      | here hmem => exact nomatch hmem
      | inModule hmem => exact nomatch hmem
      | inItem hmem => exact nomatch hmem
    | inItem hmem => simp at hmem

/-- A tuple of a reference to an array, a type with a type and a constant as arguments, and a tuple
of one element. Its text is read as a type that resolves to itself in every module. -/
theorem resolveTy_importedIds :
    let symbols := (ofSources {} importedIds).symbols
    let scope : ItemPath := ⟨"crate::acc"⟩
    let id : Ty := .path false [.mk "UserId" .none]
    let optional : Ty := .path false [.mk "Option" (.angled false [.type id] false)]
    let t : Ty := .tuple [
      .reference (some "static") true (.array id [.literal "4"]),
      .path false [.mk "Ring" (.angled false [.type optional, .const [.literal "16"]] false)],
      .tuple [.path false [.mk "u8" .none]] true] false
    let r := "(&'static mut [crate::ids::UserId; 4], " ++
      "crate::ids::Ring<::std::option::Option<crate::ids::UserId>, 16>, (u8,))"
    (∀ source ∈ importedIds, source.NamedBy IsIdentifier) ∧
      (∀ name ∈ primitiveTypes, symbols.Spares name) ∧ scope.InCrate ∧
      (∀ part ∈ t.parts, part.IsLegible) ∧ symbols.resolveTy scope t = .ok r ∧
      ∃ t', Ty.ofText? r = some t' ∧ ∀ scope' : ItemPath, scope'.InCrate →
        symbols.resolveTy scope' t' = .ok r := by
  intro symbols scope id optional t r
  have hprimitive : ∀ name ∈ primitiveTypes, symbols.Spares name := by
    have hall : ∀ name ∈ primitiveTypes, (∀ p ∈ symbols.items, p.terminal ≠ name) ∧
        (∀ m ∈ symbols.modules, m.path.terminal ≠ name) ∧
        ∀ i ∈ symbols.imports, i.binding.pathOf? name = none := by decide +kernel
    exact fun name hname => ⟨(hall name hname).1, (hall name hname).2.1, (hall name hname).2.2⟩
  have hscope : scope.InCrate := ⟨["acc"], by decide, rfl⟩
  have hlegible : ∀ part ∈ t.parts, part.IsLegible := by
    have hparts : t.parts = [.length [.literal "4"], .path ⟨false, ["UserId"]⟩,
      .path ⟨false, ["Ring"]⟩, .path ⟨false, ["Option"]⟩, .path ⟨false, ["UserId"]⟩,
      .const [.literal "16"], .path ⟨false, ["u8"]⟩] := rfl
    have hnames : ∀ name ∈ ["UserId", "Ring", "Option", "u8"], IsIdentifier name := by decide
    have hpath (name : String) (hname : name ∈ ["UserId", "Ring", "Option", "u8"]) :
        (TyPart.path ⟨false, [name]⟩).IsLegible := by
      intro member hmember
      have hplain : ∀ name ∈ ["UserId", "Ring", "Option", "u8"], IsPlainName name := by decide
      rw [UsePath.memberNames_of_plain (hplain name hname), List.mem_singleton] at hmember
      rw [hmember]
      exact hnames name hname
    rw [hparts]
    simp only [List.forall_mem_cons]
    exact ⟨Grammar.spellsLength_numeral (by decide), hpath _ (by decide),
      hpath _ (by decide), hpath _ (by decide), hpath _ (by decide),
      Grammar.spells_numeral (by decide), hpath _ (by decide), nofun⟩
  have hr : symbols.resolveTy scope t = .ok r := by decide +kernel
  exact ⟨namedBy_importedIds, hprimitive, hscope, hlegible, hr,
    resolveTy_elsewhere namedBy_importedIds hprimitive hscope hlegible hr⟩

/-! ## Keywords -/

/-- A file may be called like a keyword. No path through its module is a type, so that what resolves
in the module cannot even be read elsewhere. -/
theorem resolvedIn?_keywordModule :
    Files.modulePath? ⟨"src"⟩ ⟨"src/type.rs"⟩ =
        some ⟨"crate::type"⟩ ∧
      resolvedIn? [(⟨"crate::type"⟩, "pub struct Id;\n")] ⟨"crate::type"⟩ "Id" =
        some "crate::type::Id" ∧
      (Ty.ofText? "crate::type::Id").isNone := by
  decide +kernel

end Feed

end ServiceDispatch
