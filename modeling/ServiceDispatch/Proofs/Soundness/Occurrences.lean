import ServiceDispatch.Proofs.Soundness.Scopes

/-!
# Occurrences of items

Every declaration of a source comes from an item that stands somewhere in it, and not inside a
module that is compiled for tests only. The modules of a source are declared with scopes above
them if its restricted visibilities name modules above the items that carry them.
-/

namespace ServiceDispatch

/-- Whether an item stands in the module `place`, as one of some items of a module or inside one
of them. What is inside a module for tests only does not count. -/
inductive Occurs : ItemPath → List Item → ItemPath → Item → Prop where
  | here {module : ItemPath} {items : List Item} {item : Item} (hmem : item ∈ items) :
      Occurs module items module item
  | inModule {module place : ItemPath} {items content : List Item} {item : Item}
      {decl : ModuleDecl} (hmem : .module decl (some content) ∈ items)
      (hcompiled : isTestOnly decl.attributes = false)
      (hcontent : Occurs (module.join decl.name) content place item) :
      Occurs module items place item
  | inItem {module place : ItemPath} {items inner : List Item} {item : Item}
      (hmem : .other inner ∈ items) (hinner : Occurs module inner place item) :
      Occurs module items place item

namespace Occurs

variable {module place : ItemPath} {items : List Item} {item : Item}

/-- More items have more occurrences, so an item that is found among some items of a module is found
among all of them. -/
theorem mono {items' : List Item} (hitems : items ⊆ items')
    (hoccurs : Occurs module items place item) :
    Occurs module items' place item := by
  cases hoccurs with
  | here hmem => exact .here (hitems hmem)
  | inModule hmem hcompiled hcontent => exact .inModule (hitems hmem) hcompiled hcontent
  | inItem hmem hinner => exact .inItem (hitems hmem) hinner

/-- In a module of the crate all items stand in modules of the crate. -/
theorem inCrate (hoccurs : Occurs module items place item) (hmodule : module.InCrate) :
    place.InCrate := by
  induction hoccurs with
  | here hmem => exact hmodule
  | @inModule module place items content item decl hmem hcompiled hcontent ih =>
    exact ih (hmodule.join decl.isSegment)
  | inItem hmem hinner ih => exact ih hmodule

end Occurs

/-! ## Declarations -/

namespace Item

/-- What an item declares, apart from the items inside it. -/
def ownDeclarations (context : ScanContext) (module : ItemPath) : Item → List Declaration
  | .module decl _ =>
    if isTestOnly decl.attributes then []
    else [.module (module.join decl.name) (decl.visibility.scope module)]
  | .other _ => []
  | item => item.declarations context module

/-- Items declare what each of them declares, and nothing else. The order of the items matters for
the order of the declarations only. -/
theorem mem_declarationsOfAll {context : ScanContext} {module : ItemPath} {items : List Item}
    {declaration : Declaration} :
    declaration ∈ declarationsOfAll context module items ↔
      ∃ item ∈ items, declaration ∈ item.declarations context module := by
  induction items with
  | nil => simp [declarationsOfAll]
  | cons item items ih => rw [declarationsOfAll, List.mem_append, ih, List.exists_mem_cons_iff]

/-- A module for tests only declares nothing, and any other one itself and its contents. -/
theorem mem_declarations_module {context : ScanContext} {module : ItemPath} {decl : ModuleDecl}
    {content : Option (List Item)} {declaration : Declaration} :
    declaration ∈ (Item.module decl content).declarations context module ↔
      isTestOnly decl.attributes = false ∧
        (declaration = .module (module.join decl.name) (decl.visibility.scope module) ∨
          ∃ items, content = some items ∧
            declaration ∈ declarationsOfAll context (module.join decl.name) items) := by
  rw [declarations]
  cases isTestOnly decl.attributes with
  | true => simp
  | false => cases content <;> simp

/-- An item declares what it declares by itself, whether or not it has items inside it. -/
theorem mem_declarations_of_own {context : ScanContext} {module : ItemPath} {item : Item}
    {declaration : Declaration} (hown : declaration ∈ item.ownDeclarations context module) :
    declaration ∈ item.declarations context module := by
  cases item with
  | module decl content =>
    rw [ownDeclarations] at hown
    split at hown
    · exact absurd hown List.not_mem_nil
    · rename_i hcompiled
      exact mem_declarations_module.mpr
        ⟨Bool.eq_false_iff.mpr hcompiled, .inl (List.mem_singleton.mp hown)⟩
  | other inner => exact absurd hown List.not_mem_nil
  | _ => exact hown

mutual

/-- What an item declares comes from the item or from one inside it. -/
theorem occurs_of_mem_declarations (context : ScanContext) (module : ItemPath) (item : Item)
    (declaration : Declaration) (hmem : declaration ∈ item.declarations context module) :
    ∃ place source, Occurs module [item] place source ∧
      declaration ∈ source.ownDeclarations context place := by
  cases item with
  | module decl content =>
    obtain ⟨hcompiled, hself | ⟨items, hitems, hinside⟩⟩ := mem_declarations_module.mp hmem
    · refine ⟨module, _, .here (List.mem_singleton.mpr rfl), ?_⟩
      rw [ownDeclarations, hcompiled, hself]
      exact List.mem_singleton.mpr rfl
    · cases content with
      | none => exact nomatch hitems
      | some content =>
        obtain rfl := Option.some.inj hitems
        obtain ⟨place, source, hoccurs, hown⟩ :=
          occurs_of_mem_declarationsOfAll context (module.join decl.name) content declaration
            hinside
        exact ⟨place, source, .inModule (List.mem_singleton.mpr rfl) hcompiled hoccurs, hown⟩
  | other inner =>
    obtain ⟨place, source, hoccurs, hown⟩ :=
      occurs_of_mem_declarationsOfAll context module inner declaration hmem
    exact ⟨place, source, .inItem (List.mem_singleton.mpr rfl) hoccurs, hown⟩
  | _ => exact ⟨module, _, .here (List.mem_singleton.mpr rfl), hmem⟩

/-- What items declare comes from one of them or from one inside them. -/
theorem occurs_of_mem_declarationsOfAll (context : ScanContext) (module : ItemPath)
    (items : List Item) (declaration : Declaration)
    (hmem : declaration ∈ declarationsOfAll context module items) :
    ∃ place source, Occurs module items place source ∧
      declaration ∈ source.ownDeclarations context place := by
  cases items with
  | nil => exact absurd hmem List.not_mem_nil
  | cons item items =>
    rw [declarationsOfAll, List.mem_append] at hmem
    rcases hmem with hfirst | hrest
    · obtain ⟨place, source, hoccurs, hown⟩ :=
        occurs_of_mem_declarations context module item declaration hfirst
      refine ⟨place, source, hoccurs.mono ?_, hown⟩
      intro other hother
      rw [List.mem_singleton.mp hother]
      exact List.mem_cons_self
    · obtain ⟨place, source, hoccurs, hown⟩ :=
        occurs_of_mem_declarationsOfAll context module items declaration hrest
      exact ⟨place, source, hoccurs.mono (List.subset_cons_self _ _), hown⟩

end

/-- The declarations of items are those of the occurrences among them. -/
theorem mem_declarationsOfAll_iff_occurs {context : ScanContext} {module : ItemPath}
    {items : List Item} {declaration : Declaration} :
    declaration ∈ declarationsOfAll context module items ↔
      ∃ place item, Occurs module items place item ∧
        declaration ∈ item.ownDeclarations context place := by
  constructor
  · exact occurs_of_mem_declarationsOfAll context module items declaration
  · rintro ⟨place, item, hoccurs, hown⟩
    induction hoccurs with
    | here hmem => exact mem_declarationsOfAll.mpr ⟨_, hmem, mem_declarations_of_own hown⟩
    | inModule hmem hcompiled hcontent ih =>
      refine mem_declarationsOfAll.mpr ⟨_, hmem, mem_declarations_module.mpr ⟨hcompiled, .inr ?_⟩⟩
      exact ⟨_, rfl, ih hown⟩
    | inItem hmem hinner ih => exact mem_declarationsOfAll.mpr ⟨_, hmem, ih hown⟩

/-- A declared module comes from a module item that is not for tests. Its path is the name behind
the path of the enclosing module, and its scope the one that the visibility of the item names there.
-/
theorem of_module_mem_ownDeclarations {context : ScanContext} {place path visibleIn : ItemPath}
    {item : Item} (hown : .module path visibleIn ∈ item.ownDeclarations context place) :
    ∃ decl content, item = .module decl content ∧ isTestOnly decl.attributes = false ∧
      path = place.join decl.name ∧ visibleIn = decl.visibility.scope place := by
  cases item with
  | module decl content =>
    have hmem := mem_declarations_of_own hown
    rw [ownDeclarations] at hown
    split at hown
    · exact absurd hown List.not_mem_nil
    · obtain ⟨hpath, hscope⟩ := Declaration.module.inj (List.mem_singleton.mp hown)
      exact ⟨decl, content, rfl, (mem_declarations_module.mp hmem).1, hpath, hscope⟩
  | _ => simp [ownDeclarations, declarations] at hown

/-- A declared type comes from a struct or an enum that is not for tests, and is declared where the
item stands. -/
theorem of_type_mem_ownDeclarations {context : ScanContext} {place : ItemPath}
    {type : DeclaredType} {item : Item}
    (hown : .type type ∈ item.ownDeclarations context place) :
    ∃ decl, item = .type decl ∧ isTestOnly decl.attributes = false ∧
      type = decl.declared context place := by
  cases item with
  | type decl =>
    have htype : isTestOnly decl.attributes = false ∧ type = decl.declared context place := by
      simpa [ownDeclarations, declarations] using hown
    exact ⟨decl, rfl, htype⟩
  | _ => simp [ownDeclarations, declarations] at hown

/-- A declared `impl` block comes from such an item. Items for tests, with a trait or with
parameters declare none. -/
theorem of_impl_mem_ownDeclarations {context : ScanContext} {place : ItemPath}
    {block : ImplBlock} {item : Item}
    (hown : .impl block ∈ item.ownDeclarations context place) :
    ∃ decl, item = .impl decl ∧ decl.block? place context.dispatcher = some block := by
  cases item with
  | impl decl =>
    have hblock : decl.block? place context.dispatcher = some block := by
      simpa [ownDeclarations, declarations] using hown
    exact ⟨decl, rfl, hblock⟩
  | _ => simp [ownDeclarations, declarations] at hown

end Item

/-! ## Scopes -/

/-- Whether a visibility, if it is restricted, names its module or one above it. -/
def Visibility.NamesAncestor (visibility : Visibility) (module : ItemPath) : Prop :=
  ∀ names, visibility = .within names → visibility.scope module ∈ module :: module.ancestors

/-- Whether a source stands in the crate, and the restricted visibilities of its modules name
modules above them. -/
def Source.IsRegular (source : Source) : Prop :=
  source.module.InCrate ∧ ∀ place decl content,
    Occurs source.module source.items place (.module decl content) →
      decl.visibility.NamesAncestor place

namespace ItemPath

/-- The ancestors of a path of the crate are in the crate. -/
theorem InCrate.of_mem_ancestors {p q : ItemPath} (hp : p.InCrate) (hq : q ∈ p.ancestors) :
    q.InCrate := by
  revert hq
  refine InCrate.induction (motive := fun p => q ∈ p.ancestors → q.InCrate) ?_ ?_ hp
  · intro hq
    rw [ancestors_root] at hq
    exact absurd hq List.not_mem_nil
  · intro p name hp hname ih hq
    rw [hp.ancestors_join hname] at hq
    rcases List.mem_cons.mp hq with rfl | hq
    · exact hp
    · exact ih hq

end ItemPath

/-- The scope of an item is above its module, and is itself in the crate. A visibility that names no
ancestor is excluded by the hypothesis, as the compiler excludes it. -/
theorem Visibility.NamesAncestor.scope_above {visibility : Visibility} {module : ItemPath}
    (hnames : visibility.NamesAncestor module) (hmodule : module.InCrate) :
    (visibility.scope module).InCrate ∧ module.isUnder (visibility.scope module) := by
  cases visibility with
  | everyone => exact ⟨ItemPath.inCrate_root, hmodule.isUnder_root⟩
  | inherited => exact ⟨hmodule, module.isUnder_self⟩
  | within names =>
    rcases List.mem_cons.mp (hnames names rfl) with hself | hancestor
    · rw [hself]
      exact ⟨hmodule, module.isUnder_self⟩
    · have hscope := hmodule.of_mem_ancestors hancestor
      exact ⟨hscope, ((hmodule.mem_ancestors_iff hscope).mp hancestor).1⟩

/-- A member is under its module, which is what makes a private item visible in the modules inside
its own. -/
theorem ItemPath.InCrate.isUnder_of_join {p : ItemPath} (hp : p.InCrate) {name : String}
    (hname : IsSegment name) : (p.join name).isUnder p :=
  (hp.isUnder_join_iff hp hname).mpr (.inr p.isUnder_self)

namespace Source

/-- All modules of a regular source are declared with scopes above them. -/
theorem IsRegular.scopedAbove {source : Source} (hsource : source.IsRegular)
    {context : ScanContext} :
    ∀ declaration ∈ source.declarations context, declaration.ScopedAbove := by
  obtain ⟨hmodule, hvisible⟩ := hsource
  intro declaration hmem
  rcases List.mem_append.mp hmem with hheads | hitems
  · obtain ⟨path, hpath, rfl⟩ := List.mem_map.mp hheads
    have hin : path.InCrate := by
      rcases List.mem_append.mp hpath with hancestor | hself
      · exact hmodule.of_mem_ancestors hancestor
      · rwa [List.mem_singleton.mp hself]
    exact ⟨hin, ItemPath.inCrate_root, hin.isUnder_root⟩
  · obtain ⟨place, item, hoccurs, hown⟩ := Item.mem_declarationsOfAll_iff_occurs.mp hitems
    cases declaration with
    | module path visibleIn =>
      obtain ⟨decl, content, rfl, -, rfl, rfl⟩ := Item.of_module_mem_ownDeclarations hown
      have hplace := hoccurs.inCrate hmodule
      have habove := (hvisible place decl content hoccurs).scope_above hplace
      exact ⟨hplace.join decl.isSegment, habove.1,
        ItemPath.isUnder_trans (hplace.isUnder_of_join decl.isSegment) habove.2⟩
    | _ => trivial

end Source

namespace Feed

variable {settings : Settings} {sources : List Source}

/-- The declarations of all sources. -/
def allDeclarations (settings : Settings) (sources : List Source) : List Declaration :=
  sources.flatMap (·.declarations (.ofSettings settings))

/-- Every declaration other than a module comes from an item of the sources. -/
theorem occurs_of_mem_allDeclarations {declaration : Declaration}
    (hmem : declaration ∈ allDeclarations settings sources)
    (hmodule : ∀ path visibleIn, declaration ≠ .module path visibleIn) :
    ∃ source ∈ sources, ∃ place item, Occurs source.module source.items place item ∧
      declaration ∈ item.ownDeclarations (.ofSettings settings) place := by
  obtain ⟨source, hsource, hdeclaration⟩ := List.mem_flatMap.mp hmem
  refine ⟨source, hsource, ?_⟩
  rcases List.mem_append.mp hdeclaration with hheads | hitems
  · obtain ⟨path, -, hpath⟩ := List.mem_map.mp hheads
    exact absurd hpath.symm (hmodule path .root)
  · exact Item.mem_declarationsOfAll_iff_occurs.mp hitems

/-- All modules of regular sources are declared with scopes above them. -/
theorem scopedAbove_of_mem_allDeclarations (hsources : ∀ source ∈ sources, source.IsRegular) :
    ∀ declaration ∈ allDeclarations settings sources, declaration.ScopedAbove := by
  intro declaration hmem
  obtain ⟨source, hsource, hdeclaration⟩ := List.mem_flatMap.mp hmem
  exact (hsources source hsource).scopedAbove declaration hdeclaration

/-- A module is declared by the place of a source, and then it is visible everywhere, or by a module
item that is not for tests only. -/
theorem module_mem_allDeclarations_iff {path scope : ItemPath} :
    .module path scope ∈ allDeclarations settings sources ↔
      (scope = .root ∧ ∃ source ∈ sources, path ∈ source.module.ancestors ++ [source.module]) ∨
      ∃ source ∈ sources, ∃ place decl content,
        Occurs source.module source.items place (.module decl content) ∧
        isTestOnly decl.attributes = false ∧ path = place.join decl.name ∧
        scope = decl.visibility.scope place := by
  constructor
  · intro hmem
    obtain ⟨source, hsource, hdeclaration⟩ := List.mem_flatMap.mp hmem
    rcases List.mem_append.mp hdeclaration with hheads | hitems
    · obtain ⟨head, hhead, heq⟩ := List.mem_map.mp hheads
      obtain ⟨rfl, rfl⟩ := Declaration.module.inj heq
      exact .inl ⟨rfl, source, hsource, hhead⟩
    · obtain ⟨place, item, hoccurs, hown⟩ := Item.mem_declarationsOfAll_iff_occurs.mp hitems
      obtain ⟨decl, content, rfl, hcompiled, hpath, hscope⟩ :=
        Item.of_module_mem_ownDeclarations hown
      exact .inr ⟨source, hsource, place, decl, content, hoccurs, hcompiled, hpath, hscope⟩
  · rintro (⟨rfl, source, hsource, hhead⟩ |
      ⟨source, hsource, place, decl, content, hoccurs, hcompiled, rfl, rfl⟩)
    · exact List.mem_flatMap.mpr
        ⟨source, hsource, List.mem_append_left _ (List.mem_map.mpr ⟨path, hhead, rfl⟩)⟩
    · refine List.mem_flatMap.mpr ⟨source, hsource, List.mem_append_right _ ?_⟩
      refine Item.mem_declarationsOfAll_iff_occurs.mpr ⟨place, _, hoccurs, ?_⟩
      rw [Item.ownDeclarations, hcompiled]
      exact List.mem_singleton.mpr rfl

end Feed

end ServiceDispatch
