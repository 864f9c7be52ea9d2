import Mathlib.Data.List.Basic
import ServiceDispatch.Proofs.Lookup.Limit
import ServiceDispatch.Proofs.Resolution.Agreement

/-!
# The order of imports

The imports of a module are asked one after the other, and the first answer counts. If no name is
bound twice by name, their order matters only where two globs offer different paths under one name:
then the one that stands first decides, although neither is preferred by the language.
-/

namespace ServiceDispatch.SymbolTable

/-- The first answer of a list does not depend on its order if all answers are the same. -/
theorem findSome?_eq_of_perm {α β : Type} {f : α → Option β} {xs ys : List α} (hperm : xs.Perm ys)
    (hsame : ∀ x ∈ xs, ∀ y ∈ xs, ∀ a b, f x = some a → f y = some b → a = b) :
    xs.findSome? f = ys.findSome? f := by
  cases hys : ys.findSome? f with
  | none =>
    rw [List.findSome?_eq_none_iff] at hys ⊢
    exact fun x hx => hys x (hperm.mem_iff.mp hx)
  | some b =>
    obtain ⟨y, hy, hb⟩ := List.exists_of_findSome?_eq_some hys
    have hyx : y ∈ xs := hperm.mem_iff.mpr hy
    cases hxs : xs.findSome? f with
    | none =>
      have hnone := List.findSome?_eq_none_iff.mp hxs y hyx
      simp [hb] at hnone
    | some a =>
      obtain ⟨x, hx, ha⟩ := List.exists_of_findSome?_eq_some hxs
      rw [hsame x hx y hyx a b ha hb]

/-! ## Tables whose imports are reordered -/

/-- Whether two tables are the same apart from the order of the imports of each module. -/
structure Reorders (table other : SymbolTable) : Prop where
  items : other.items = table.items
  modules : other.modules = table.modules
  externCrates : other.externCrates = table.externCrates
  imports : ∀ module, (other.importsOf module).Perm (table.importsOf module)

/-- Whether no module has two named imports of one name that lead to different paths. -/
def AliasesDiffer (table : SymbolTable) : Prop :=
  ∀ module name path path', .named name path ∈ table.importsOf module →
    .named name path' ∈ table.importsOf module → path = path'

/-- Whether two globs of a module offer different paths under a name within a number of steps, and
the name is neither declared nor imported by name. -/
def Ambiguous (table : SymbolTable) (n : Nat) : Prop :=
  ∃ module name, table.declares module name = false ∧ table.namedImport? module name = none ∧
    ∃ binding ∈ table.importsOf module, ∃ binding' ∈ table.importsOf module, ∃ answer answer',
      table.globMemberWithin? n module name binding = some answer ∧
        table.globMemberWithin? n module name binding' = some answer' ∧ answer ≠ answer'

/-- Whether names lead to the same within every number of steps that a lookup may take, and types
and items resolve alike. -/
structure SameAnswers (table other : SymbolTable) : Prop where
  lookups : ∀ n ≤ maxSteps, other.lookupWithin n = table.lookupWithin n
  types : Resolver.ofTable other = .ofTable table
  items : other.resolveItem? = table.resolveItem?

variable {table other : SymbolTable}

namespace Reorders

/-- The same names are declared, as only imports change their places. -/
theorem declares_eq (h : table.Reorders other) : other.declares = table.declares := by
  funext module name
  simp only [declares, hasItem, hasModule, scope?, h.items, h.modules]

/-- The same named import has a name, since two of one name in a module have the same path. -/
theorem findSome?_pathOf?_eq (h : table.Reorders other) (haliases : table.AliasesDiffer)
    (module : ItemPath) (name : String) :
    (other.importsOf module).findSome? (Import.pathOf? name) =
      (table.importsOf module).findSome? (Import.pathOf? name) := by
  have hnamed {binding : Import} {path : UsePath} (hpath : binding.pathOf? name = some path) :
      binding = .named name path := by
    cases binding with
    | named bound path' => simp_all [Import.pathOf?]
    | glob path' => simp [Import.pathOf?] at hpath
  symm
  apply findSome?_eq_of_perm (h.imports module).symm
  intro binding hbinding binding' hbinding' path path' hpath hpath'
  rw [hnamed hpath] at hbinding
  rw [hnamed hpath'] at hbinding'
  exact haliases module name path path' hbinding hbinding'

/-- Where no globs are ambiguous names lead to the same. The induction is on the steps: the
paths of imports take two and the targets of globs one. -/
theorem lookupWithin_eq (h : table.Reorders other) (haliases : table.AliasesDiffer) {n : Nat}
    (hclear : ∀ k < n, ¬ table.Ambiguous k) : other.lookupWithin n = table.lookupWithin n := by
  induction n using Nat.strongRecOn with
  | ind n ih =>
    cases n with
    | zero => rfl
    | succ n =>
      have hpath := ih (n - 1) (by omega) fun k hk => hclear k (by omega)
      have hglob := ih n (by omega) fun k hk => hclear k (by omega)
      rw [lookupWithin_succ, lookupWithin_succ, hpath, hglob]
      funext module name
      rw [lookupBy_eq, lookupBy_eq, h.declares_eq, h.findSome?_pathOf?_eq haliases]
      by_cases hdeclares : table.declares module name
      · simp [hdeclares]
      · rw [Bool.not_eq_true] at hdeclares
        cases hnamed : (table.importsOf module).findSome? (Import.pathOf? name) with
        | some path => simp [hdeclares]
        | none =>
          simp only [hdeclares, Bool.false_eq_true, if_false]
          symm
          apply findSome?_eq_of_perm (h.imports module).symm
          intro binding hbinding binding' hbinding' answer answer' hanswer hanswer'
          by_contra hne
          have hunnamed : table.namedImport? module name = none := by
            simp [namedImport?, hdeclares, hnamed]
          exact hclear n (by omega) ⟨module, name, hdeclares, hunnamed, binding, hbinding,
            binding', hbinding', answer, answer', hanswer, hanswer', hne⟩

/-- Where no globs are ambiguous all answers are the same. -/
theorem sameAnswers (h : table.Reorders other) (haliases : table.AliasesDiffer)
    (hclear : ∀ n < maxSteps, ¬ table.Ambiguous n) : table.SameAnswers other := by
  have hlookups (n : Nat) (hn : n ≤ maxSteps) : other.lookupWithin n = table.lookupWithin n :=
    h.lookupWithin_eq haliases fun k hk => hclear k (by omega)
  have hnames : other.SameNames table :=
    ⟨fun path => by simp only [hasItem, h.items], hlookups maxSteps (Nat.le_refl _),
      fun name => by rw [h.externCrates]⟩
  exact ⟨hlookups, hnames.resolver_eq, hnames.resolveItem?_eq⟩

end Reorders

/-! ## An import that is moved to the front -/

/-- The table in which an import of a module stands in front of all others. -/
def frontImport (table : SymbolTable) (module : ItemPath) (binding : Import) : SymbolTable :=
  { table with imports := ⟨module, binding⟩ :: table.imports.erase ⟨module, binding⟩ }

/-- An import that is moved to the front is the first one of its module. -/
theorem importsOf_frontImport (table : SymbolTable) (module : ItemPath) (binding : Import) :
    ∃ rest, (table.frontImport module binding).importsOf module = binding :: rest := by
  simp [frontImport, importsOf]

/-- Moving an import to the front changes nothing but the order. -/
theorem reorders_frontImport {module : ItemPath} {binding : Import}
    (hbinding : binding ∈ table.importsOf module) :
    table.Reorders (table.frontImport module binding) := by
  have hmem : ⟨module, binding⟩ ∈ table.imports := by
    obtain ⟨i, hi, rfl⟩ := List.mem_map.mp hbinding
    obtain ⟨hi, hmodule⟩ := List.mem_filter.mp hi
    rwa [← beq_iff_eq.mp hmodule]
  refine ⟨rfl, rfl, rfl, fun place => ?_⟩
  exact ((List.perm_cons_erase hmem).symm.filter _).map _

/-- The glob in front of all others decides what a name means that is neither declared nor imported
by name. -/
theorem lookupWithin_frontImport (haliases : table.AliasesDiffer) {n : Nat}
    (hclear : ∀ k < n, ¬ table.Ambiguous k) {module answer : ItemPath} {name : String}
    (hdeclares : table.declares module name = false)
    (hnamed : table.namedImport? module name = none) {binding : Import}
    (hbinding : binding ∈ table.importsOf module)
    (hanswer : table.globMemberWithin? n module name binding = some answer) :
    (table.frontImport module binding).lookupWithin (n + 1) module name = some answer := by
  have hfront := reorders_frontImport hbinding
  have hpath : (table.frontImport module binding).lookupWithin (n - 1) =
      table.lookupWithin (n - 1) :=
    hfront.lookupWithin_eq haliases fun k hk => hclear k (by omega)
  have hglob : (table.frontImport module binding).lookupWithin n = table.lookupWithin n :=
    hfront.lookupWithin_eq haliases hclear
  have hnamed' : (table.frontImport module binding).namedImport? module name = none := by
    rw [namedImport?, hfront.declares_eq, hfront.findSome?_pathOf?_eq haliases]
    exact hnamed
  obtain ⟨rest, hrest⟩ := table.importsOf_frontImport module binding
  rw [lookupWithin_of_globs (by rw [hfront.declares_eq, hdeclares]) hnamed', hrest,
    List.findSome?_cons, globMemberWithin?, hpath, hglob]
  rw [globMemberWithin?] at hanswer
  rw [hanswer]

/-- In a table without two named imports of one name, the order of the imports does not matter
exactly if no two globs offer different paths under one name. The hypothesis excludes two named
imports of one name that lead to different paths, of which the first would answer. Below the first
ambiguity all lookups agree, so that the globs in front decide there. -/
theorem sameAnswers_iff_not_ambiguous (table : SymbolTable) (haliases : table.AliasesDiffer) :
    (∀ other, table.Reorders other → table.SameAnswers other) ↔
      ∀ n < maxSteps, ¬ table.Ambiguous n := by
  constructor
  · intro hsame n
    induction n using Nat.strongRecOn with
    | ind n ih =>
      intro hn hambiguous
      have hclear (k : Nat) (hk : k < n) : ¬ table.Ambiguous k := ih k hk (by omega)
      obtain ⟨module, name, hdeclares, hnamed, binding, hbinding, binding', hbinding', answer,
        answer', hanswer, hanswer', hne⟩ := hambiguous
      have hfirst := lookupWithin_frontImport haliases hclear hdeclares hnamed hbinding hanswer
      have hsecond := lookupWithin_frontImport haliases hclear hdeclares hnamed hbinding' hanswer'
      rw [(hsame _ (reorders_frontImport hbinding)).lookups (n + 1) hn] at hfirst
      rw [(hsame _ (reorders_frontImport hbinding')).lookups (n + 1) hn, hfirst] at hsecond
      exact hne (Option.some.inj hsecond)
  · intro hclear other hreorders
    exact hreorders.sameAnswers haliases hclear

/-! ## Two modules with items of one name -/

/-- An import of all members of a module of the crate. -/
def globOf (module : String) : Import := .glob ⟨false, ["crate", module]⟩

/-- Two modules with an item of one name each, and a module that imports all members of both, in an
order. -/
def globbed (order : List String) : SymbolTable where
  items := [⟨"crate::a::Id"⟩, ⟨"crate::b::Id"⟩]
  modules := [⟨.root, .root⟩, ⟨⟨"crate::a"⟩, .root⟩, ⟨⟨"crate::b"⟩, .root⟩,
    ⟨⟨"crate::user"⟩, .root⟩]
  imports := order.map fun module => ⟨⟨"crate::user"⟩, globOf module⟩

/-- The globs in another order. -/
theorem reorders_globbed : (globbed ["a", "b"]).Reorders (globbed ["b", "a"]) := by
  refine ⟨rfl, rfl, rfl, fun module => ?_⟩
  have himports : (globbed ["b", "a"]).imports.Perm (globbed ["a", "b"]).imports := .swap _ _ _
  exact (himports.filter _).map _

/-- Nothing is imported by name. -/
theorem aliasesDiffer_globbed (order : List String) : (globbed order).AliasesDiffer := by
  intro module name path path' hpath
  simp [globbed, importsOf, globOf] at hpath

/-- The glob that stands first decides which of the two items the name means. -/
theorem resolveNames_globbed :
    (globbed ["a", "b"]).AliasesDiffer ∧ (globbed ["a", "b"]).Reorders (globbed ["b", "a"]) ∧
      (globbed ["a", "b"]).resolveNames ⟨"crate::user"⟩ false ["Id"] = .ok ⟨"crate::a::Id"⟩ ∧
      (globbed ["b", "a"]).resolveNames ⟨"crate::user"⟩ false ["Id"] = .ok ⟨"crate::b::Id"⟩ :=
  ⟨aliasesDiffer_globbed _, reorders_globbed, rfl, rfl⟩

/-- One glob is never ambiguous, as there is no other one to offer something else. -/
theorem not_ambiguous_globbed (n : Nat) : ¬ (globbed ["a"]).Ambiguous n := by
  have honly {module : ItemPath} {binding : Import}
      (hbinding : binding ∈ (globbed ["a"]).importsOf module) : binding = globOf "a" := by
    obtain ⟨i, hi, rfl⟩ := List.mem_map.mp hbinding
    have himport := List.mem_of_mem_filter hi
    simp only [globbed, List.map_cons, List.map_nil, List.mem_singleton] at himport
    rw [himport]
  rintro ⟨module, name, -, -, binding, hbinding, binding', hbinding', answer, answer', hanswer,
    hanswer', hne⟩
  rw [honly hbinding] at hanswer
  rw [honly hbinding', hanswer] at hanswer'
  exact hne (Option.some.inj hanswer')

/-- The order of one glob does not matter, and that of two globs does. Neither table has two named
imports of one name. -/
theorem sameAnswers_globbed :
    ((globbed ["a"]).AliasesDiffer ∧
      ∀ other, (globbed ["a"]).Reorders other → (globbed ["a"]).SameAnswers other) ∧
    (globbed ["a", "b"]).AliasesDiffer ∧
      ¬ ∀ other, (globbed ["a", "b"]).Reorders other → (globbed ["a", "b"]).SameAnswers other := by
  refine ⟨⟨aliasesDiffer_globbed _, ?_⟩, aliasesDiffer_globbed _, fun hsame => ?_⟩
  · exact (sameAnswers_iff_not_ambiguous _ (aliasesDiffer_globbed _)).mpr fun n _ =>
      not_ambiguous_globbed n
  · have hclear := (sameAnswers_iff_not_ambiguous _ (aliasesDiffer_globbed _)).mp hsame
    exact hclear 2 (by decide) ⟨⟨"crate::user"⟩, "Id", rfl, rfl, globOf "a", by decide, globOf "b",
      by decide, ⟨"crate::a::Id"⟩, ⟨"crate::b::Id"⟩, rfl, rfl, by decide⟩

end ServiceDispatch.SymbolTable
