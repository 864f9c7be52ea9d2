import ServiceDispatch.Feed
import ServiceDispatch.Proofs.Soundness.CratePath

/-!
# Scopes of modules

A module may be declared several times, and its scope in the symbol table lies under the scope of
every declaration. All these scopes are above the module, so they form a chain, and the deepest
one is the narrowest.
-/

namespace ServiceDispatch

namespace ItemPath

/-- What is under a path is under all paths above it. -/
theorem isUnder_trans {p q r : ItemPath} (hpq : p.isUnder q) (hqr : q.isUnder r) : p.isUnder r :=
  isUnder_iff.mpr ((isUnder_iff.mp hqr).trans (isUnder_iff.mp hpq))

/-- Every path is under itself, so a private item is visible in its own module. -/
theorem isUnder_self (p : ItemPath) : p.isUnder p := isUnder_iff.mpr List.prefix_rfl

/-- Of two paths above the same path, the deeper one is under the other. -/
theorem InCrate.isUnder_of_depth_le {p q r : ItemPath} (hq : q.InCrate) (hpq : p.isUnder q)
    (hpr : p.isUnder r) (hdepth : r.depth ≤ q.depth) : q.isUnder r := by
  have hpos : 0 < q.segments.length := by
    obtain ⟨names, hnames, rfl⟩ := hq
    rw [segments_ofNames hnames]
    exact Nat.succ_pos _
  rw [depth, depth] at hdepth
  rw [isUnder_iff] at hpq hpr ⊢
  exact List.prefix_of_prefix_length_le hpr hpq (by omega)

end ItemPath

namespace SymbolTable

/-- The scope of a module after one more declaration. -/
def scopeAfter (table : SymbolTable) (path visibleIn : ItemPath) : ItemPath :=
  if visibleIn.depth > ((table.scope? path).getD .root).depth then visibleIn
  else (table.scope? path).getD .root

/-- Declaring a module sets its scope and no other one. A module that is known keeps its place in
the list. -/
theorem scope?_declareModule (table : SymbolTable) (path visibleIn other : ItemPath) :
    (table.declareModule path visibleIn).scope? other =
      if other = path then some (table.scopeAfter path visibleIn) else table.scope? other := by
  cases hknown : table.modules.find? (·.path == path) with
  | none =>
    have hmodules : (table.declareModule path visibleIn).modules =
        table.modules ++ [⟨path, table.scopeAfter path visibleIn⟩] := by
      simp [declareModule, hasModule, scopeAfter, scope?, hknown]
    rw [scope?, hmodules, List.find?_append]
    by_cases hother : other = path
    · subst hother
      simp [hknown]
    · have hne : (path == other) = false := beq_eq_false_iff_ne.mpr (Ne.symm hother)
      rw [if_neg hother, List.find?_cons, hne, List.find?_nil, Option.or_none, scope?]
  | some known =>
    let narrow : ModuleScope → ModuleScope := fun m =>
      if m.path == path then { m with visibleIn := table.scopeAfter path visibleIn } else m
    have hmodules : (table.declareModule path visibleIn).modules = table.modules.map narrow := by
      simp [declareModule, hasModule, scopeAfter, scope?, hknown, narrow]
    have hpath : (fun m : ModuleScope => m.path == other) ∘ narrow = (·.path == other) := by
      funext m
      simp only [Function.comp, narrow]
      split <;> rfl
    rw [scope?, hmodules, List.find?_map, hpath]
    by_cases hother : other = path
    · subst hother
      have hfound := List.find?_some hknown
      simp only [hknown, Option.map_some, narrow, if_pos hfound, if_pos]
    · rw [if_neg hother, scope?, Option.map_map]
      cases hfind : table.modules.find? (·.path == other) with
      | none => rfl
      | some m =>
        have hfound := List.find?_some hfind
        have hm : m.path = other := beq_iff_eq.mp hfound
        have hne : ¬ m.path = path := hm ▸ hother
        simp [narrow, hne]

/-- Whether every module is in the crate, and its scope is above it. -/
def ScopesAbove (table : SymbolTable) : Prop :=
  ∀ path scope, table.scope? path = some scope →
    path.InCrate ∧ scope.InCrate ∧ path.isUnder scope

/-- Whether a module is declared with a scope under a given one. -/
def Confines (table : SymbolTable) (path visibleIn : ItemPath) : Prop :=
  ∃ scope, table.scope? path = some scope ∧ scope.isUnder visibleIn

/-- The scope of a module after one more declaration is above the module, and under both the new
scope and the one before. -/
theorem scopeAfter_spec {table : SymbolTable} (htable : table.ScopesAbove)
    {path visibleIn : ItemPath} (hpath : path.InCrate) (hvisible : visibleIn.InCrate)
    (hunder : path.isUnder visibleIn) :
    (table.scopeAfter path visibleIn).InCrate ∧
      path.isUnder (table.scopeAfter path visibleIn) ∧
      (table.scopeAfter path visibleIn).isUnder visibleIn ∧
      ∀ scope, table.scope? path = some scope →
        (table.scopeAfter path visibleIn).isUnder scope := by
  have hknown : ((table.scope? path).getD .root).InCrate ∧
      path.isUnder ((table.scope? path).getD .root) := by
    cases hscope : table.scope? path with
    | none => exact ⟨ItemPath.inCrate_root, hpath.isUnder_root⟩
    | some scope => exact (htable path scope hscope).2
  have hself : ∀ scope, table.scope? path = some scope →
      ((table.scope? path).getD .root).isUnder scope := by
    intro scope hscope
    rw [hscope]
    exact scope.isUnder_self
  unfold scopeAfter
  split
  · rename_i hdeeper
    have hnarrow := hvisible.isUnder_of_depth_le hunder hknown.2 (by omega)
    refine ⟨hvisible, hunder, visibleIn.isUnder_self, ?_⟩
    intro scope hscope
    exact ItemPath.isUnder_trans hnarrow (hself scope hscope)
  · rename_i hshallow
    exact ⟨hknown.1, hknown.2, hknown.1.isUnder_of_depth_le hknown.2 hunder (by omega), hself⟩

end SymbolTable

/-- Whether a declared module is in the crate, and its scope is above it. -/
def Declaration.ScopedAbove : Declaration → Prop
  | .module path visibleIn => path.InCrate ∧ visibleIn.InCrate ∧ path.isUnder visibleIn
  | _ => True

namespace SymbolTable

/-- A declaration keeps scopes above their modules. A second declaration of a module may narrow its
scope, but only to one that is above the module as well. -/
theorem ScopesAbove.declare {table : SymbolTable} (htable : table.ScopesAbove)
    {declaration : Declaration} (hdeclaration : declaration.ScopedAbove) :
    (table.declare declaration).ScopesAbove := by
  cases declaration with
  | module path visibleIn =>
    obtain ⟨hpath, hvisible, hunder⟩ := hdeclaration
    intro other scope hscope
    rw [SymbolTable.declare, scope?_declareModule] at hscope
    split at hscope
    · rename_i heq
      subst heq
      obtain rfl := Option.some.inj hscope
      have hspec := scopeAfter_spec htable hpath hvisible hunder
      exact ⟨hpath, hspec.1, hspec.2.1⟩
    · exact htable other scope hscope
  | _ => exact htable

/-- A declaration keeps modules confined: a scope that is recorded once is never widened by what is
declared after it. -/
theorem Confines.declare {table : SymbolTable} (htable : table.ScopesAbove)
    {declaration : Declaration} (hdeclaration : declaration.ScopedAbove) {path visibleIn : ItemPath}
    (hconfines : table.Confines path visibleIn) :
    (table.declare declaration).Confines path visibleIn := by
  obtain ⟨scope, hscope, hunder⟩ := hconfines
  cases declaration with
  | module declared scope' =>
    obtain ⟨hdeclared, hscope', hunder'⟩ := hdeclaration
    rw [Confines, SymbolTable.declare, scope?_declareModule]
    by_cases heq : path = declared
    · subst heq
      have hspec := scopeAfter_spec htable hdeclared hscope' hunder'
      rw [if_pos rfl]
      exact ⟨_, rfl, ItemPath.isUnder_trans (hspec.2.2.2 scope hscope) hunder⟩
    · rw [if_neg heq]
      exact ⟨scope, hscope, hunder⟩
  | _ => exact ⟨scope, hscope, hunder⟩

/-- A declared module is confined to its scope, whatever was declared before. An earlier declaration
with a narrower scope confines it even more. -/
theorem confines_declare {table : SymbolTable} (htable : table.ScopesAbove)
    {path visibleIn : ItemPath} (hscoped : (Declaration.module path visibleIn).ScopedAbove) :
    (table.declare (.module path visibleIn)).Confines path visibleIn := by
  obtain ⟨hpath, hvisible, hunder⟩ := hscoped
  have hspec := scopeAfter_spec htable hpath hvisible hunder
  rw [Confines, SymbolTable.declare, scope?_declareModule, if_pos rfl]
  exact ⟨_, rfl, hspec.2.2.1⟩

/-- Declarations confine the modules that were confined before, and all modules among them. -/
theorem confines_foldl {declarations : List Declaration}
    (hdeclarations : ∀ declaration ∈ declarations, declaration.ScopedAbove) {table : SymbolTable}
    (htable : table.ScopesAbove) {path visibleIn : ItemPath}
    (hpath : table.Confines path visibleIn ∨ .module path visibleIn ∈ declarations) :
    (declarations.foldl SymbolTable.declare table).Confines path visibleIn := by
  induction declarations generalizing table with
  | nil => exact hpath.resolve_right List.not_mem_nil
  | cons declaration rest ih =>
    obtain ⟨hfirst, hrest⟩ := List.forall_mem_cons.mp hdeclarations
    refine ih hrest (htable.declare hfirst) ?_
    rcases hpath with hconfines | hmem
    · exact .inl (hconfines.declare htable hfirst)
    · rcases List.mem_cons.mp hmem with rfl | hmem
      · exact .inl (confines_declare htable hfirst)
      · exact .inr hmem

/-- External crates do not change the scopes of modules. They are entered before any declaration, so
this is the start of the induction. -/
theorem scope?_foldl_addExternCrate (names : List String) (table : SymbolTable) (path : ItemPath) :
    (names.foldl addExternCrate table).scope? path = table.scope? path := by
  induction names generalizing table with
  | nil => rfl
  | cons name rest ih => exact ih (table.addExternCrate name)

/-- Without declarations only the root is a module, and it is its own scope. -/
theorem eq_root_of_scope?_externCrates {externCrates : List String} {path scope : ItemPath}
    (hscope : (externCrates.foldl addExternCrate {}).scope? path = some scope) :
    path = .root ∧ scope = .root := by
  rw [scope?_foldl_addExternCrate] at hscope
  by_cases hroot : path = .root
  · subst hroot
    exact ⟨rfl, (Option.some.inj hscope).symm⟩
  · have hnone : SymbolTable.scope? {} path = none := by
      simp [scope?, Ne.symm hroot]
    rw [hnone] at hscope
    exact nomatch hscope

/-- Without declarations all scopes are above their modules, since there is no module but the root.
-/
theorem scopesAbove_externCrates (externCrates : List String) :
    (externCrates.foldl addExternCrate {}).ScopesAbove := by
  intro path scope hscope
  obtain ⟨rfl, rfl⟩ := eq_root_of_scope?_externCrates hscope
  exact ⟨ItemPath.inCrate_root, ItemPath.inCrate_root, ItemPath.isUnder_self _⟩

/-- In the table of declarations every module among them is confined to its scope. -/
theorem confines_ofDeclarations (externCrates : List String) {declarations : List Declaration}
    (hdeclarations : ∀ declaration ∈ declarations, declaration.ScopedAbove)
    {path visibleIn : ItemPath} (hmem : .module path visibleIn ∈ declarations) :
    (ofDeclarations externCrates declarations).Confines path visibleIn :=
  confines_foldl hdeclarations (scopesAbove_externCrates externCrates) (.inr hmem)

end SymbolTable

end ServiceDispatch
