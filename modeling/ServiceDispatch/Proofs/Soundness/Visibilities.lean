import ServiceDispatch.Proofs.Soundness.Occurrences

/-!
# What a visibility names

A visibility names a module by its place in the tree of modules: the root, the module of the item,
a module some steps above it, or one that is written from the root. The scope that the scan computes
is that module, and code lies in it if its module begins with the same names.
-/

namespace ServiceDispatch

namespace Visibility

/-- Whether a visibility that is written in the module with some names, given from the root, names
the module with the names `scope`. Each `super` takes away the last name of the module. -/
inductive Names (names : List String) : Visibility → List String → Prop where
  /-- A public item is visible in the whole crate. -/
  | everyone : Names names .everyone []
  /-- An item without a visibility is visible in its own module. -/
  | inherited : Names names .inherited names
  /-- The path begins with `super`. -/
  | fromParent {front back down : List String} (hnames : names = front ++ back) (hback : back ≠ [])
      (hdown : "super" ∉ down) :
      Names names (.within (List.replicate back.length "super" ++ down)) (front ++ down)
  /-- The path begins with `self`, and is just that in `pub(self)`. -/
  | fromModule {front back down : List String} (hnames : names = front ++ back)
      (hdown : "super" ∉ down) :
      Names names (.within ("self" :: (List.replicate back.length "super" ++ down))) (front ++ down)
  /-- The path begins with `crate`, and is just that in `pub(crate)`. -/
  | fromRoot {down : List String} (hdown : "super" ∉ down) :
      Names names (.within ("crate" :: down)) down

variable {names scope : List String} {visibility : Visibility}

/-- Each `super` leads to the parent, so that as many of them take away as many names. -/
theorem foldl_step_supers (front : List String) {back : List String}
    (hback : ∀ name ∈ back, IsSegment name) :
    (List.replicate back.length "super").foldl step (ItemPath.ofNames (front ++ back)) =
      ItemPath.ofNames front := by
  induction back using List.reverseRecOn with
  | nil => rw [List.append_nil, List.length_nil, List.replicate_zero, List.foldl_nil]
  | append_singleton back name ih =>
    obtain ⟨hfront, hname⟩ := List.forall_mem_append.mp hback
    have hparent : (ItemPath.ofNames (front ++ back ++ [name])).parent? =
        some (ItemPath.ofNames (front ++ back)) :=
      ItemPath.parent?_ofNames (hname name (List.mem_singleton.mpr rfl))
    have hstep : step (ItemPath.ofNames (front ++ (back ++ [name]))) "super" =
        ItemPath.ofNames (front ++ back) := by
      rw [step, if_pos rfl, ItemPath.parentOrRoot, ← List.append_assoc, hparent, Option.getD_some]
    rw [List.length_append, List.length_singleton, List.replicate_succ, List.foldl_cons, hstep]
    exact ih hfront

/-- Other names lead to members: a path without `super` only goes down, one module for each name. -/
theorem foldl_step_names (front : List String) {down : List String} (hdown : "super" ∉ down) :
    down.foldl step (ItemPath.ofNames front) = ItemPath.ofNames (front ++ down) := by
  induction down generalizing front with
  | nil => rw [List.append_nil, List.foldl_nil]
  | cons name down ih =>
    obtain ⟨hname, hrest⟩ := List.ne_and_not_mem_of_not_mem_cons hdown
    rw [List.foldl_cons, step, if_neg (Ne.symm hname), ← ItemPath.ofNames_append, ih _ hrest,
      List.append_assoc, List.singleton_append]

/-- Some `super` and further names lead from a module to the one that is reached by taking away and
adding names. -/
theorem foldl_step_relative (front : List String) {back down : List String}
    (hback : ∀ name ∈ back, IsSegment name) (hdown : "super" ∉ down) :
    (List.replicate back.length "super" ++ down).foldl step (ItemPath.ofNames (front ++ back)) =
      ItemPath.ofNames (front ++ down) := by
  rw [List.foldl_append, foldl_step_supers front hback, foldl_step_names front hdown]

/-- The scope of an item is the module that its visibility names. -/
theorem Names.scope_eq (hnames : ∀ name ∈ names, IsSegment name)
    (hscope : visibility.Names names scope) :
    visibility.scope (ItemPath.ofNames names) = ItemPath.ofNames scope := by
  cases hscope with
  | everyone => rfl
  | inherited => rfl
  | @fromParent front back down hsplit hback hdown =>
    subst hsplit
    obtain ⟨name, rest, rfl⟩ := List.exists_cons_of_ne_nil hback
    exact foldl_step_relative front (List.forall_mem_append.mp hnames).2 hdown
  | @fromModule front back down hsplit hdown =>
    subst hsplit
    exact foldl_step_relative front (List.forall_mem_append.mp hnames).2 hdown
  | fromRoot hdown => exact foldl_step_names [] hdown

/-- Code lies in the scope of an item if its module begins with the names of the module that the
visibility names. -/
theorem Names.isUnder_scope_iff (hnames : ∀ name ∈ names, IsSegment name)
    (hscope : visibility.Names names scope) (hall : ∀ name ∈ scope, IsSegment name)
    {code : List String} (hcode : ∀ name ∈ code, IsSegment name) :
    (ItemPath.ofNames code).isUnder (visibility.scope (ItemPath.ofNames names)) ↔
      scope <+: code := by
  rw [hscope.scope_eq hnames, ItemPath.isUnder_iff, ItemPath.segments_ofNames hall,
    ItemPath.segments_ofNames hcode, List.cons_prefix_cons]
  exact and_iff_right rfl

/-- A visibility names its module or one above it if its module begins with the names of the module
that it names. Sources that are regular have no other restricted visibilities. -/
theorem Names.namesAncestor_iff (hnames : ∀ name ∈ names, IsSegment name)
    (hscope : visibility.Names names scope) (hall : ∀ name ∈ scope, IsSegment name) :
    visibility.NamesAncestor (ItemPath.ofNames names) ↔ scope <+: names := by
  have hmodule : (ItemPath.ofNames names).InCrate := ⟨names, hnames, rfl⟩
  have hunder := hscope.isUnder_scope_iff hnames hall hnames
  constructor
  · intro hancestor
    exact hunder.mp (hancestor.scope_above hmodule).2
  · intro hprefix restricted _
    have hin : (visibility.scope (ItemPath.ofNames names)).InCrate :=
      hscope.scope_eq hnames ▸ ⟨scope, hall, rfl⟩
    by_cases hself : visibility.scope (ItemPath.ofNames names) = ItemPath.ofNames names
    · exact List.mem_cons.mpr (.inl hself)
    · have hmem := (hmodule.mem_ancestors_iff hin).mpr ⟨hunder.mpr hprefix, hself⟩
      exact List.mem_cons_of_mem _ hmem

end Visibility

end ServiceDispatch
