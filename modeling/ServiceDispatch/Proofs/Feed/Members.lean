import ServiceDispatch.Proofs.Feed.Order
import ServiceDispatch.Proofs.Feed.TestOnly

/-!
# Items that paths reach

An item can be named if only modules stand around it. Each struct and enum of this kind is a
candidate, in source order. The converse fails: items inside the initializer of a constant, which no
path reaches, are declared as members of the module around the constant. Without such items, a crate
declares exactly the types, names and imports that paths reach.
-/

namespace ServiceDispatch

/-! ## Nested and hidden items -/

/-- Whether an item stands in the module `place`, with nothing but modules around it. What is inside
a module for tests only does not count. -/
inductive Nested : ItemPath → List Item → ItemPath → Item → Prop where
  | here {module : ItemPath} {items : List Item} {item : Item} (hmem : item ∈ items) :
      Nested module items module item
  | inModule {module place : ItemPath} {items content : List Item} {item : Item}
      {decl : ModuleDecl} (hmem : .module decl (some content) ∈ items)
      (hcompiled : isTestOnly decl.attributes = false)
      (hcontent : Nested (module.join decl.name) content place item) :
      Nested module items place item

/-- Whether an item stands inside an item other than a module, such as the initializer of a constant
in the module `place`. -/
inductive Hidden : ItemPath → List Item → ItemPath → Item → Prop where
  | inModule {module place : ItemPath} {items content : List Item} {item : Item}
      {decl : ModuleDecl} (hmem : .module decl (some content) ∈ items)
      (hcompiled : isTestOnly decl.attributes = false)
      (hcontent : Hidden (module.join decl.name) content place item) :
      Hidden module items place item
  | inItem {module place : ItemPath} {items inner : List Item} {item : Item}
      (hmem : .other inner ∈ items) (hinner : Occurs module inner place item) :
      Hidden module items place item

section

variable {module place : ItemPath} {items : List Item} {item : Item}

/-- Every item of a module is nested or hidden in it. -/
theorem occurs_iff_nested_or_hidden :
    Occurs module items place item ↔
      Nested module items place item ∨ Hidden module items place item := by
  constructor
  · intro hoccurs
    induction hoccurs with
    | here hmem => exact .inl (.here hmem)
    | inModule hmem hcompiled hcontent ih =>
      rcases ih with hnested | hhidden
      · exact .inl (.inModule hmem hcompiled hnested)
      · exact .inr (.inModule hmem hcompiled hhidden)
    | inItem hmem hinner ih => exact .inr (.inItem hmem hinner)
  · rintro (hnested | hhidden)
    · induction hnested with
      | here hmem => exact .here hmem
      | inModule hmem hcompiled hcontent ih => exact .inModule hmem hcompiled ih
    · induction hhidden with
      | inModule hmem hcompiled hcontent ih => exact .inModule hmem hcompiled ih
      | inItem hmem hinner => exact .inItem hmem hinner

/-- More items hide more: what is hidden in some of them is hidden in all. -/
theorem Hidden.mono {items' : List Item} (hitems : items ⊆ items')
    (hhidden : Hidden module items place item) : Hidden module items' place item := by
  cases hhidden with
  | inModule hmem hcompiled hcontent => exact .inModule (hitems hmem) hcompiled hcontent
  | inItem hmem hinner => exact .inItem (hitems hmem) hinner

end

/-! ## Members -/

namespace Item

mutual

/-- The structs and enums of an item with nothing but modules around them, with these modules, in
source order. -/
def members (module : ItemPath) : Item → List (ItemPath × TypeDecl)
  | .module decl (some items) =>
    if isTestOnly decl.attributes then [] else membersOfAll (module.join decl.name) items
  | .type decl => if isTestOnly decl.attributes then [] else [(module, decl)]
  | _ => []

/-- The structs and enums of some items with nothing but modules around them. -/
def membersOfAll (module : ItemPath) : List Item → List (ItemPath × TypeDecl)
  | [] => []
  | item :: items => item.members module ++ membersOfAll module items

end

mutual

/-- The members of an item are types of it, in the same order. -/
theorem members_sublist_types (module : ItemPath) (item : Item) :
    (item.members module).Sublist (item.types module) := by
  cases item with
  | module decl content =>
    cases content with
    | none => exact List.Sublist.refl _
    | some items =>
      rw [members, types]
      split
      · exact List.Sublist.refl _
      · exact membersOfAll_sublist_typesOfAll (module.join decl.name) items
  | other inner => exact List.nil_sublist _
  | _ => exact List.Sublist.refl _

/-- The members of some items are types of them, in the same order. -/
theorem membersOfAll_sublist_typesOfAll (module : ItemPath) (items : List Item) :
    (membersOfAll module items).Sublist (typesOfAll module items) := by
  cases items with
  | nil => exact List.Sublist.refl _
  | cons item items =>
    exact (members_sublist_types module item).append (membersOfAll_sublist_typesOfAll module items)

end

mutual

/-- An item that hides no types has no others than its members: a type inside another item would be
hidden. -/
theorem members_eq_types (module : ItemPath) (item : Item)
    (hhides : ∀ place decl, ¬ Hidden module [item] place (.type decl)) :
    item.members module = item.types module := by
  cases item with
  | module decl content =>
    cases content with
    | none => rfl
    | some items =>
      rw [members, types]
      split
      · rfl
      · rename_i hcompiled
        refine membersOfAll_eq_typesOfAll (module.join decl.name) items ?_
        exact fun place inner hhidden => hhides place inner
          (.inModule (List.mem_singleton.mpr rfl) (Bool.eq_false_iff.mpr hcompiled) hhidden)
  | other inner =>
    have hnone : typesOfAll module inner = [] := by
      refine List.eq_nil_iff_forall_not_mem.mpr fun type hmem => ?_
      have hoccurs := occurs_of_mem_typesOfAll module inner type.1 type.2 hmem
      exact hhides type.1 type.2 (.inItem (List.mem_singleton.mpr rfl) hoccurs)
    exact hnone.symm
  | _ => rfl

/-- Items that hide no types have no others than their members. -/
theorem membersOfAll_eq_typesOfAll (module : ItemPath) (items : List Item)
    (hhides : ∀ place decl, ¬ Hidden module items place (.type decl)) :
    membersOfAll module items = typesOfAll module items := by
  cases items with
  | nil => rfl
  | cons item items =>
    have hfirst := members_eq_types module item fun place decl hhidden =>
      hhides place decl (hhidden.mono (by simp))
    have hrest := membersOfAll_eq_typesOfAll module items fun place decl hhidden =>
      hhides place decl (hhidden.mono (List.subset_cons_self _ _))
    rw [membersOfAll, typesOfAll, hfirst, hrest]

end

end Item

namespace Source

/-- The structs and enums of a source that paths reach, in source order. -/
def members (source : Source) : List (ItemPath × TypeDecl) :=
  Item.membersOfAll source.module source.items

/-- Whether no item of a source stands inside an item other than a module. -/
def HidesNothing (source : Source) : Prop :=
  ∀ place item, ¬ Hidden source.module source.items place item

end Source

/-! ## Feeds -/

namespace Feed

variable {settings : Settings} {sources : List Source}

/-- If sources hide nothing, what they declare other than modules comes from nested items. -/
theorem nested_of_mem_allDeclarations (hhides : ∀ source ∈ sources, source.HidesNothing)
    {declaration : Declaration} (hmodule : ∀ path visibleIn, declaration ≠ .module path visibleIn) :
    declaration ∈ allDeclarations settings sources ↔
      ∃ source ∈ sources, ∃ place item, Nested source.module source.items place item ∧
        declaration ∈ item.ownDeclarations (.ofSettings settings) place := by
  constructor
  · intro hmem
    obtain ⟨source, hsource, place, item, hoccurs, hown⟩ :=
      occurs_of_mem_allDeclarations hmem hmodule
    have hnested := (occurs_iff_nested_or_hidden.mp hoccurs).resolve_right
      (hhides source hsource place item)
    exact ⟨source, hsource, place, item, hnested, hown⟩
  · rintro ⟨source, hsource, place, item, hnested, hown⟩
    have hoccurs := occurs_iff_nested_or_hidden.mpr (.inl hnested)
    exact List.mem_flatMap.mpr ⟨source, hsource, List.mem_append_right _
      (Item.mem_declarationsOfAll_iff_occurs.mpr ⟨place, item, hoccurs, hown⟩)⟩

/-- If sources hide nothing, their declared items are the nested types, unions, aliases and
traits. -/
theorem hasItem_iff_nested (hhides : ∀ source ∈ sources, source.HidesNothing) (path : ItemPath) :
    (ofSources settings sources).symbols.hasItem path ↔
      ∃ source ∈ sources, ∃ place,
        (∃ decl, Nested source.module source.items place (.type decl) ∧
          isTestOnly decl.attributes = false ∧ path = place.join decl.name) ∨
        ∃ name, Nested source.module source.items place (.name name) ∧ path = place.join name := by
  refine SymbolTable.hasItem_ofDeclarations_iff.trans ?_
  constructor
  · rintro ⟨declaration, hmem, hitem⟩
    have hmodule : ∀ path visibleIn, declaration ≠ .module path visibleIn := by
      rintro path visibleIn rfl
      exact nomatch hitem
    obtain ⟨source, hsource, place, item, hnested, hown⟩ :=
      (nested_of_mem_allDeclarations hhides hmodule).mp hmem
    refine ⟨source, hsource, place, ?_⟩
    cases declaration with
    | type declared =>
      obtain rfl := Option.some.inj hitem
      obtain ⟨decl, rfl, hcompiled, rfl⟩ := Item.of_type_mem_ownDeclarations hown
      exact .inl ⟨decl, hnested, hcompiled, rfl⟩
    | name declared =>
      obtain rfl := Option.some.inj hitem
      obtain ⟨name, rfl, rfl⟩ := Item.of_name_mem_ownDeclarations hown
      exact .inr ⟨name, hnested, rfl⟩
    | _ => exact nomatch hitem
  · rintro ⟨source, hsource, place, ⟨decl, hnested, hcompiled, rfl⟩ | ⟨name, hnested, rfl⟩⟩
    · refine ⟨.type (decl.declared (.ofSettings settings) place), ?_, rfl⟩
      refine (nested_of_mem_allDeclarations hhides (by simp)).mpr
        ⟨source, hsource, place, _, hnested, ?_⟩
      simp [Item.ownDeclarations, Item.declarations, hcompiled]
    · refine ⟨.name (place.join name), ?_, rfl⟩
      exact (nested_of_mem_allDeclarations hhides (by simp)).mpr
        ⟨source, hsource, place, _, hnested, List.mem_singleton.mpr rfl⟩

/-- If sources hide nothing, their imports are those of the nested use items. -/
theorem mem_imports_iff_nested (hhides : ∀ source ∈ sources, source.HidesNothing)
    (i : ModuleImport) :
    i ∈ (ofSources settings sources).symbols.imports ↔
      ∃ source ∈ sources, ∃ attributes rooted tree,
        Nested source.module source.items i.module (.use attributes rooted tree) ∧
        isTestOnly attributes = false ∧ i.binding ∈ tree.bindings rooted [] := by
  refine SymbolTable.mem_imports_ofDeclarations_iff.trans
    ((nested_of_mem_allDeclarations hhides (by simp)).trans ?_)
  constructor
  · rintro ⟨source, hsource, place, item, hnested, hown⟩
    obtain rfl := Item.place_of_binding_mem_ownDeclarations hown
    obtain ⟨attributes, rooted, tree, rfl, hbinding⟩ := Item.of_binding_mem_ownDeclarations hown
    refine ⟨source, hsource, attributes, rooted, tree, hnested, ?_, hbinding⟩
    by_contra htests
    simp [Item.ownDeclarations, Item.declarations, htests] at hown
  · rintro ⟨source, hsource, attributes, rooted, tree, hnested, hcompiled, hbinding⟩
    refine ⟨source, hsource, i.module, _, hnested, ?_⟩
    simpa [Item.ownDeclarations, Item.declarations, hcompiled] using hbinding

/-- The candidates are the structs and enums that are not for tests only, in source order, and those
that paths reach are among them. If no item stands inside another one than a module, there are no
other candidates, declared names or imports than those that paths reach. -/
theorem candidates_members (settings : Settings) (sources : List Source) :
    (List.Forall₂ (fun (type : ItemPath × TypeDecl) c => c.name = type.1.join type.2.name)
      (sources.flatMap Source.types) (ofSources settings sources).candidates) ∧
    (sources.flatMap Source.members).Sublist (sources.flatMap Source.types) ∧
    ((∀ source ∈ sources, source.HidesNothing) →
      sources.flatMap Source.types = sources.flatMap Source.members ∧
      (∀ path, (ofSources settings sources).symbols.hasItem path ↔
        ∃ source ∈ sources, ∃ place,
          (∃ decl, Nested source.module source.items place (.type decl) ∧
            isTestOnly decl.attributes = false ∧ path = place.join decl.name) ∨
          ∃ name, Nested source.module source.items place (.name name) ∧
            path = place.join name) ∧
      ∀ i, i ∈ (ofSources settings sources).symbols.imports ↔
        ∃ source ∈ sources, ∃ attributes rooted tree,
          Nested source.module source.items i.module (.use attributes rooted tree) ∧
          isTestOnly attributes = false ∧ i.binding ∈ tree.bindings rooted []) := by
  refine ⟨?_, ?_, fun hhides => ⟨?_, hasItem_iff_nested hhides, mem_imports_iff_nested hhides⟩⟩
  · obtain ⟨found, hcandidates⟩ := candidates_ofSources settings sources
    rw [hcandidates, List.forall₂_map_right_iff, List.forall₂_same]
    exact fun type _ => rfl
  · induction sources with
    | nil => exact List.Sublist.refl _
    | cons source sources ih =>
      exact (Item.membersOfAll_sublist_typesOfAll source.module source.items).append ih
  · refine List.flatMap_congr fun source hsource => ?_
    exact (Item.membersOfAll_eq_typesOfAll source.module source.items
      fun place decl => hhides source hsource place _).symm

/-! ## Nested modules and constants -/

/-- The name of the nested module. -/
theorem isSegment_user : IsSegment "user" := by decide

/-- A module with a nested module in which a type stands, and a use item. -/
def nestedUser : List Source := [
  ⟨⟨"crate::acc"⟩, [
    .module ⟨[], .everyone, "user", isSegment_user⟩
      (some [.type ⟨.struct, [], .everyone, "User", by decide, false⟩, .function]),
    .use [] false (.path "user" (.name "User"))]⟩]

/-- Only the module has items inside it. -/
theorem hidesNothing_nestedUser : ∀ source ∈ nestedUser, source.HidesNothing := by
  intro source hsource place item hhidden
  obtain rfl := List.mem_singleton.mp hsource
  cases hhidden with
  | inModule hmem hcompiled hcontent =>
    simp only [List.mem_cons, Item.module.injEq, Option.some.injEq, reduceCtorEq, List.not_mem_nil,
      or_false] at hmem
    obtain ⟨-, rfl⟩ := hmem
    cases hcontent with
    | inModule hmem => simp at hmem
    | inItem hmem => simp at hmem
  | inItem hmem => simp at hmem

/-- The nested type is the only candidate, and its module the only one with an import: all items
stand in modules, so that there is nothing else. -/
theorem candidates_nestedUser :
    (∀ source ∈ nestedUser, source.HidesNothing) ∧
      nestedUser.flatMap Source.types = nestedUser.flatMap Source.members ∧
      (ofSources {} nestedUser).candidates.map (fun c => c.name.text) = ["crate::acc::user::User"] ∧
      ∀ i ∈ (ofSources {} nestedUser).symbols.imports, ∃ source ∈ nestedUser,
        ∃ attributes rooted tree,
          Nested source.module source.items i.module (.use attributes rooted tree) := by
  have hmembers := (candidates_members {} nestedUser).2.2 hidesNothing_nestedUser
  refine ⟨hidesNothing_nestedUser, hmembers.1, by decide +kernel, fun i hi => ?_⟩
  obtain ⟨source, hsource, attributes, rooted, tree, hnested, -⟩ := (hmembers.2.2 i).mp hi
  exact ⟨source, hsource, attributes, rooted, tree, hnested⟩

/-- The names of the candidates of a crate that is given by the texts of its modules. -/
def candidatesIn? (texts : List (ItemPath × String)) : Option (List String) := do
  let sources ← texts.mapM fun (module, text) => Source.ofText? module text
  return (ofSources {} sources).candidates.map (·.name.text)

/-- A type in the initializer of a constant is taken for a member of the module, and so is an import
there. Those in the body of a function are not. -/
theorem candidatesIn?_constant :
    candidatesIn? [(⟨"crate::acc"⟩, "const N: usize = { pub struct Local; 0 };\n")] =
        some ["crate::acc::Local"] ∧
      candidatesIn? [(⟨"crate::acc"⟩, "fn n() -> usize { pub struct Local; 0 }\n")] = some [] ∧
      resolvedIn? (importedType "const N: usize = { use crate::ids::UserId as Id; 0 };\n")
        ⟨"crate::acc"⟩ "Id" = some "crate::ids::UserId" ∧
      resolvedIn? (importedType "fn n() -> usize { use crate::ids::UserId as Id; 0 }\n")
        ⟨"crate::acc"⟩ "Id" = none := by
  decide +kernel

end Feed

end ServiceDispatch
