import ServiceDispatch.Proofs.Feed.Order
import ServiceDispatch.Proofs.Regeneration.Tables

/-!
# Sources without a name

If no item, module or import of some sources is called by a name, then the name means nothing in
their symbol table, and nothing stands inside a module of this name.
-/

namespace ServiceDispatch

/-! ## Names of a kind -/

/-- Whether a text is an identifier other than a given one. -/
def IsOtherThan (name other : String) : Prop := IsIdentifier other ∧ other ≠ name

instance (name other : String) : Decidable (IsOtherThan name other) :=
  inferInstanceAs (Decidable (_ ∧ _))

variable {P Q : String → Prop}

/-- Names of a kind are names of more kinds, also in the bindings and paths of an import. -/
theorem Import.NamedBy.mono {binding : Import} (hbinding : binding.NamedBy P)
    (hPQ : ∀ name, P name → Q name) : binding.NamedBy Q where
  bound := fun name hname => hPQ name (hbinding.bound name hname)
  members := fun name hname => hPQ name (hbinding.members name hname)
  rooted := hbinding.rooted

/-- An item with names of a kind has names of more kinds. -/
theorem Item.NamedBy.mono {item : Item} (hitem : item.NamedBy P) (hPQ : ∀ name, P name → Q name) :
    item.NamedBy Q := by
  cases item with
  | module decl content => exact hPQ _ hitem
  | type decl => exact hPQ _ hitem
  | name declared => exact hPQ _ hitem
  | use attributes rooted tree => exact fun binding hbinding => (hitem binding hbinding).mono hPQ
  | _ => trivial

/-- A source with names of a kind has names of more kinds. -/
theorem Source.NamedBy.mono {source : Source} (hsource : source.NamedBy P)
    (hPQ : ∀ name, P name → Q name) : source.NamedBy Q where
  module := by
    obtain ⟨names, hnames, hmodule⟩ := hsource.module
    exact ⟨names, fun name hname => hPQ name (hnames name hname), hmodule⟩
  items := fun place item hoccurs => (hsource.items place item hoccurs).mono hPQ

/-- Whether an item is a type with a name of a kind or an `impl` block. -/
def Item.IsFlat (P : String → Prop) : Item → Prop
  | .type decl => P decl.name
  | .impl _ => True
  | _ => False

instance [DecidablePred P] : (item : Item) → Decidable (item.IsFlat P)
  | .type decl => inferInstanceAs (Decidable (P decl.name))
  | .impl _ => .isTrue trivial
  | .module _ _ | .name _ | .use _ _ _ | .function | .other _ => .isFalse id

namespace ItemPath

/-- Whether a path is the root and names of a kind. -/
def MadeOf (P : String → Prop) (p : ItemPath) : Prop :=
  ∃ names, (∀ name ∈ names, P name) ∧ p = ofNames names

/-- A member by a name of the kind is made of such names. -/
theorem MadeOf.join {p : ItemPath} (hp : p.MadeOf P) {name : String} (hname : P name) :
    (p.join name).MadeOf P := by
  obtain ⟨names, hnames, rfl⟩ := hp
  have hall := List.forall_mem_append.mpr ⟨hnames, List.forall_mem_singleton.mpr hname⟩
  exact ⟨names ++ [name], hall, (ofNames_append names name).symm⟩

/-- A path made of names that can be segments lies in the crate. -/
theorem MadeOf.inCrate {p : ItemPath} (hp : p.MadeOf P) (hP : ∀ name, P name → IsSegment name) :
    p.InCrate := by
  obtain ⟨names, hnames, rfl⟩ := hp
  exact ⟨names, fun name hname => hP name (hnames name hname), rfl⟩

/-- The paths above a path made of names of a kind are made of such names. -/
theorem MadeOf.of_mem_ancestors {p q : ItemPath} (hp : p.MadeOf P)
    (hP : ∀ name, P name → IsSegment name) (hq : q ∈ p.ancestors) : q.MadeOf P := by
  obtain ⟨names, hnames, rfl⟩ := hp
  induction names using List.reverseRecOn with
  | nil =>
    rw [show (ofNames []).ancestors = [] from ancestors_root] at hq
    exact absurd hq List.not_mem_nil
  | append_singleton names name ih =>
    have hfront : ∀ other ∈ names, P other :=
      fun other h => hnames other (List.mem_append_left _ h)
    have hcrate : (ofNames names).InCrate := ⟨names, fun other h => hP other (hfront other h), rfl⟩
    rw [ofNames_append, hcrate.ancestors_join (hP name (hnames name (by simp)))] at hq
    rcases List.mem_cons.mp hq with rfl | hq
    · exact ⟨names, hfront, rfl⟩
    · exact ih hfront hq

/-- A path made of other names than the first one of a path is not that path. -/
theorem MadeOf.segments_ne {p : ItemPath} {name : String} (hp : p.MadeOf (IsOtherThan name))
    (rest : List String) : p.segments ≠ "crate" :: name :: rest := by
  obtain ⟨names, hnames, rfl⟩ := hp
  rw [segments_ofNames fun other hother => (hnames other hother).1.isSegment]
  intro heq
  have hmem : name ∈ names := by
    rw [(List.cons.inj heq).2]
    exact List.mem_cons_self
  exact (hnames name hmem).2 rfl

/-- A path made of other names is not the member of the root by that name. -/
theorem MadeOf.ne_join_root {p : ItemPath} {name : String} (hp : p.MadeOf (IsOtherThan name))
    (hname : IsSegment name) : p ≠ root.join name := by
  rintro rfl
  exact hp.segments_ne [] (by rw [inCrate_root.segments_join hname]; rfl)

/-- A path made of other names lies nowhere inside that member of the root. -/
theorem MadeOf.ne_join_join_root {p : ItemPath} {name : String} (hp : p.MadeOf (IsOtherThan name))
    (hname : IsSegment name) (other : String) : p ≠ (root.join name).join other := by
  rintro rfl
  have htext : ((root.join name).join other).text.toList =
      "crate".toList ++ ':' :: ':' :: (name.toList ++ ':' :: ':' :: other.toList) := by
    simp [ItemPath.join, root]
  have hparts : splitColons ((root.join name).join other).text.toList =
      "crate".toList :: name.toList :: splitColons other.toList := by
    rw [htext, splitColons_append (by decide), splitColons_append hname.2]
  have hnonempty : name.toList ≠ [] := fun h => hname.1 (String.toList_eq_nil_iff.mp h)
  refine hp.segments_ne (((splitColons other.toList).filter (· ≠ [])).map String.ofList) ?_
  rw [segments, hparts, List.filter_cons_of_pos (by decide),
    List.filter_cons_of_pos (by simpa using hnonempty)]
  simp

/-- The last name of a path made of other names is another one. -/
theorem MadeOf.terminal_ne {p : ItemPath} {name : String} (hp : p.MadeOf (IsOtherThan name))
    (hname : IsIdentifier name) : p.terminal ≠ name := by
  obtain ⟨names, hnames, rfl⟩ := hp
  rw [terminal, segments_ofNames fun other hother => (hnames other hother).1.isSegment]
  rcases List.eq_nil_or_concat' names with rfl | ⟨front, last, rfl⟩
  · rintro rfl
    exact absurd hname.2 (by decide)
  · rw [← List.cons_append, List.getLast?_append]
    exact (hnames last (by simp)).2

end ItemPath

namespace UsePath

/-- A name in a path is that of a member, or a word at its front. -/
theorem mem_memberNames_or {path : UsePath} {name : String} (hname : name ∈ path.segments) :
    name ∈ path.memberNames ∨ name ∈ ["crate", "self", "super"] := by
  have hrest {rest : List String} (h : name ∈ rest) :
      name ∈ rest.dropWhile (· == "super") ∨ name ∈ ["crate", "self", "super"] := by
    rw [← List.takeWhile_append_dropWhile (p := (· == "super")) (l := rest)] at h
    rcases List.mem_append.mp h with hfront | hback
    · have hsuper := List.mem_takeWhile_imp hfront
      rw [beq_iff_eq.mp hsuper]
      exact .inr (by decide)
    · exact .inl hback
  unfold memberNames
  split
  · exact .inl hname
  · split
    all_goals rename_i heq
    · rw [heq] at hname
      rcases List.mem_cons.mp hname with rfl | h
      · exact .inr (by decide)
      · exact hrest h
    · rw [heq] at hname
      rcases List.mem_cons.mp hname with rfl | h
      · exact .inr (by decide)
      · exact hrest h
    · rw [heq] at hname
      rcases List.mem_cons.mp hname with rfl | h
      · exact .inr (by decide)
      · exact hrest h
    · exact .inl hname

end UsePath

/-! ## Names of places -/

/-- Items stand in modules made of names of a kind if the modules around them have such names. -/
theorem Occurs.madeOf_place {module place : ItemPath} {items : List Item} {item : Item}
    (hoccurs : Occurs module items place item) (hmodule : module.MadeOf P)
    (hmodules : ∀ place decl content, Occurs module items place (.module decl content) →
      P decl.name) : place.MadeOf P := by
  induction hoccurs with
  | here hmem => exact hmodule
  | inModule hmem hcompiled hcontent ih =>
    refine ih (hmodule.join (hmodules _ _ _ (.here hmem))) ?_
    exact fun place decl content hinner =>
      hmodules place decl content (.inModule hmem hcompiled hinner)
  | inItem hmem hinner ih =>
    exact ih hmodule fun place decl content hinner =>
      hmodules place decl content (.inItem hmem hinner)

/-- A source of types and `impl` blocks has names of a kind if its module and types have. -/
theorem Source.namedBy_of_isFlat {source : Source} (hmodule : source.module.MadeOf P)
    (hitems : ∀ item ∈ source.items, item.IsFlat P) : source.NamedBy P := by
  refine ⟨hmodule, fun place item hoccurs => ?_⟩
  cases hoccurs with
  | here hmem =>
    have hitem := hitems item hmem
    cases item with
    | type decl => exact hitem
    | impl decl => trivial
    | _ => cases hitem
  | inModule hmem => cases hitems _ hmem
  | inItem hmem => cases hitems _ hmem

/-- In a source with names of a kind all items stand in modules made of such names. -/
theorem Source.NamedBy.madeOf_place {source : Source} (hsource : source.NamedBy P)
    {place : ItemPath} {item : Item} (hoccurs : Occurs source.module source.items place item) :
    place.MadeOf P :=
  hoccurs.madeOf_place hsource.module fun place _ _ hmodule => hsource.items place _ hmodule

namespace Feed

variable {settings : Settings} {sources : List Source}

/-- The declared modules are made of names of the kind of the sources. -/
theorem madeOf_of_hasModule (hP : ∀ name, P name → IsSegment name)
    (hsources : ∀ source ∈ sources, source.NamedBy P) {p : ItemPath}
    (hp : (ofSources settings sources).symbols.hasModule p) : p.MadeOf P := by
  rcases SymbolTable.hasModule_ofDeclarations_iff.mp hp with rfl | ⟨scope, hmem⟩
  · exact ⟨[], nofun, rfl⟩
  · rcases module_mem_allDeclarations_iff.mp hmem with ⟨-, source, hsource, hhead⟩ |
      ⟨source, hsource, place, decl, content, hoccurs, -, rfl, -⟩
    · have hmodule : source.module.MadeOf P := (hsources source hsource).module
      rcases List.mem_append.mp hhead with hhead | hhead
      · exact hmodule.of_mem_ancestors hP hhead
      · rwa [List.mem_singleton.mp hhead]
    · have hnamed := (hsources source hsource).items place _ hoccurs
      exact ((hsources source hsource).madeOf_place hoccurs).join hnamed

/-- The declared items are made of names of the kind of the sources. -/
theorem madeOf_of_hasItem (hsources : ∀ source ∈ sources, source.NamedBy P) {p : ItemPath}
    (hp : (ofSources settings sources).symbols.hasItem p) : p.MadeOf P := by
  obtain ⟨source, hsource, place, item, name, hoccurs, hname, rfl⟩ :=
    exists_place_of_hasItem hsources hp
  exact ((hsources source hsource).madeOf_place hoccurs).join hname

/-- Imports stand in modules made of names of the kind of the sources, and use such names. -/
theorem madeOf_of_mem_imports (hsources : ∀ source ∈ sources, source.NamedBy P) {i : ModuleImport}
    (hi : i ∈ (ofSources settings sources).symbols.imports) :
    i.module.MadeOf P ∧ i.binding.NamedBy P := by
  have hmem := SymbolTable.mem_imports_ofDeclarations_iff.mp hi
  obtain ⟨source, hsource, place, item, hoccurs, hown⟩ :=
    occurs_of_mem_allDeclarations hmem (fun _ _ h => nomatch h)
  have hplace := Item.place_of_binding_mem_ownDeclarations hown
  obtain ⟨attributes, rooted, tree, rfl, hbinding⟩ := Item.of_binding_mem_ownDeclarations hown
  rw [hplace]
  exact ⟨(hsources source hsource).madeOf_place hoccurs,
    (hsources source hsource).items place _ hoccurs i.binding hbinding⟩

/-- The table of sources in which nothing is called by a name avoids it. -/
theorem avoids_ofSources {name : String} (hname : IsIdentifier name)
    (hcrates : name ∉ (ofSources settings sources).symbols.externCrates)
    (hsources : ∀ source ∈ sources, source.NamedBy (IsOtherThan name)) :
    (ofSources settings sources).symbols.Avoids name where
  spares := {
    items := fun p hp =>
      (madeOf_of_hasItem hsources (List.contains_iff_mem.mpr hp)).terminal_ne hname
    modules := fun m hm =>
      (madeOf_of_hasModule (fun _ h => h.1.isSegment) hsources
        (SymbolTable.hasModule_of_mem hm)).terminal_ne hname
    imports := fun i hi => by
      by_contra hbound
      exact ((madeOf_of_mem_imports hsources hi).2.bound name
        (Option.isSome_iff_ne_none.mpr hbound)).2 rfl }
  members := by
    intro other
    rw [SymbolTable.declares, Bool.or_eq_false_iff]
    constructor
    · exact eq_false_of_ne_true fun hitem =>
        (madeOf_of_hasItem hsources hitem).ne_join_join_root hname.isSegment other rfl
    · exact eq_false_of_ne_true fun hmodule =>
        (madeOf_of_hasModule (fun _ h => h.1.isSegment) hsources hmodule).ne_join_join_root
          hname.isSegment other rfl
  inside := by
    refine List.eq_nil_iff_forall_not_mem.mpr fun binding hbinding => ?_
    obtain ⟨i, hi, -⟩ := List.mem_map.mp hbinding
    obtain ⟨hi, hmodule⟩ := List.mem_filter.mp hi
    exact (madeOf_of_mem_imports hsources hi).1.ne_join_root hname.isSegment
      (beq_iff_eq.mp hmodule)
  paths := by
    intro i hi hsegment
    rcases UsePath.mem_memberNames_or hsegment with hmember | hword
    · exact ((madeOf_of_mem_imports hsources hi).2.members name hmember).2 rfl
    · have hkeywords : ∀ word ∈ ["crate", "self", "super"], word ∈ Grammar.keywords := by decide
      exact hname.2 (hkeywords name hword)
  externCrates := hcrates

end Feed

end ServiceDispatch
