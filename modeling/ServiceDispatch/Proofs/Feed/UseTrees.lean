import ServiceDispatch.Proofs.Feed.TestOnly

/-!
# Import trees

An import tree stands for one import for each of its leaves, with the names on the way to the leaf
as its path. The imports are added from left to right, and a name on the way to one leaf does not
come into the path of a leaf that lies elsewhere.
-/

namespace ServiceDispatch

namespace UseTree

/-- A property of all import trees that groups inherit from their members. -/
theorem induction {P : UseTree → Prop} (path : ∀ first tree, P tree → P (.path first tree))
    (name : ∀ leaf, P (.name leaf)) (rename : ∀ leaf bound, P (.rename leaf bound)) (glob : P .glob)
    (group : ∀ trees, (∀ tree ∈ trees, P tree) → P (.group trees)) : ∀ tree, P tree
  | .path first tree => path first tree (induction path name rename glob group tree)
  | .name leaf => name leaf
  | .rename leaf bound => rename leaf bound
  | .glob => glob
  | .group trees => group trees fun tree _ => induction path name rename glob group tree

/-! ## Branches -/

/-- What a branch ends in. -/
inductive Leaf where
  | name (last : String)
  | rename (last bound : String)
  | glob

/-- A branch from the root of an import tree to one of its leaves: which member it takes in each
group, the names on the way, and the leaf. -/
structure Branch where
  position : List Nat
  names : List String
  leaf : Leaf

namespace Branch

/-- The branch with one more name before it. -/
def below (first : String) (branch : Branch) : Branch :=
  { branch with names := first :: branch.names }

/-- The branch as one in a member of a group. -/
def inMember (i : Nat) (branch : Branch) : Branch :=
  { branch with position := i :: branch.position }

/-- The branch with more names before it. -/
def after (front : List String) (branch : Branch) : Branch :=
  { branch with names := front ++ branch.names }

/-- The import that a branch stands for. A leaf `self` stands for the names before it, and a leaf
that is renamed to `_`, or a `self` without names before it that is not renamed, for none. -/
def import? (rooted : Bool) (branch : Branch) : Option Import :=
  match branch.leaf with
  | .name last =>
    if last = "self" then branch.names.getLast?.map (.named · ⟨rooted, branch.names⟩)
    else some (.named last ⟨rooted, branch.names ++ [last]⟩)
  | .rename last bound =>
    if bound = "_" then none
    else some (.named bound ⟨rooted, branch.names ++ if last = "self" then [] else [last]⟩)
  | .glob => some (.glob ⟨rooted, branch.names⟩)

/-- Whether a branch stands for no import. -/
def IsSilent (branch : Branch) : Prop :=
  (branch.names = [] ∧ branch.leaf = .name "self") ∨ ∃ last, branch.leaf = .rename last "_"

/-- Only silent branches stand for no import; all others bind a name or are globs. -/
theorem import?_eq_none_iff {rooted : Bool} {branch : Branch} :
    branch.import? rooted = none ↔ branch.IsSilent := by
  obtain ⟨position, names, leaf⟩ := branch
  cases leaf with
  | name last => by_cases hself : last = "self" <;> simp [import?, IsSilent, hself]
  | rename last bound => by_cases hbound : bound = "_" <;> simp [import?, IsSilent, hbound]
  | glob => simp [import?, IsSilent]

/-- Names that are put before a branch one after the other stand before it in their order. -/
theorem after_below (front : List String) (first : String) (branch : Branch) :
    (branch.below first).after front = branch.after (front ++ [first]) := by
  simp [below, after]

end Branch

/-- Whether an import tree has a branch. -/
inductive Reaches : UseTree → Branch → Prop where
  | name (last : String) : Reaches (.name last) ⟨[], [], .name last⟩
  | rename (last bound : String) : Reaches (.rename last bound) ⟨[], [], .rename last bound⟩
  | glob : Reaches .glob ⟨[], [], .glob⟩
  | path {first : String} {tree : UseTree} {branch : Branch} (htree : Reaches tree branch) :
      Reaches (.path first tree) (branch.below first)
  | group {trees : List UseTree} {tree : UseTree} {branch : Branch} {i : Nat}
      (hi : trees[i]? = some tree) (htree : Reaches tree branch) :
      Reaches (.group trees) (branch.inMember i)

mutual

/-- The branches of an import tree, from left to right. -/
def branches : UseTree → List Branch
  | .path first tree => tree.branches.map (.below first)
  | .name last => [⟨[], [], .name last⟩]
  | .rename last bound => [⟨[], [], .rename last bound⟩]
  | .glob => [⟨[], [], .glob⟩]
  | .group trees => branchesOfAll 0 trees

/-- The branches of the members of a group from one of them on. -/
def branchesOfAll (start : Nat) : List UseTree → List Branch
  | [] => []
  | tree :: trees => tree.branches.map (.inMember start) ++ branchesOfAll (start + 1) trees

end

/-- The branches of members are those in one of them. -/
theorem mem_branchesOfAll_iff {start : Nat} {trees : List UseTree} {branch : Branch} :
    branch ∈ branchesOfAll start trees ↔ ∃ (i : Nat) (tree : UseTree), trees[i]? = some tree ∧
      ∃ inner ∈ tree.branches, inner.inMember (start + i) = branch := by
  induction trees generalizing start with
  | nil => simp [branchesOfAll]
  | cons tree trees ih =>
    rw [branchesOfAll, List.mem_append, List.mem_map, ih]
    constructor
    · rintro (⟨inner, hinner, rfl⟩ | ⟨i, other, hother, inner, hinner, rfl⟩)
      · exact ⟨0, tree, rfl, inner, hinner, rfl⟩
      · exact ⟨i + 1, other, hother, inner, hinner, by rw [Nat.add_right_comm, Nat.add_assoc]⟩
    · rintro ⟨i, other, hother, inner, hinner, rfl⟩
      cases i with
      | zero =>
        obtain rfl := Option.some.inj hother
        exact .inl ⟨inner, hinner, rfl⟩
      | succ i =>
        exact .inr ⟨i, other, hother, inner, hinner, by rw [Nat.add_right_comm, Nat.add_assoc]⟩

/-- All branches of an import tree are listed, and no others. -/
theorem mem_branches_iff {tree : UseTree} {branch : Branch} :
    branch ∈ tree.branches ↔ tree.Reaches branch := by
  induction tree using induction generalizing branch with
  | name leaf =>
    rw [branches, List.mem_singleton]
    constructor
    · rintro rfl
      exact .name leaf
    · rintro ⟨⟩
      rfl
  | rename leaf bound =>
    rw [branches, List.mem_singleton]
    constructor
    · rintro rfl
      exact .rename leaf bound
    · rintro ⟨⟩
      rfl
  | glob =>
    rw [branches, List.mem_singleton]
    constructor
    · rintro rfl
      exact .glob
    · rintro ⟨⟩
      rfl
  | path first tree ih =>
    rw [branches, List.mem_map]
    constructor
    · rintro ⟨inner, hinner, rfl⟩
      exact .path (ih.mp hinner)
    · rintro (_ | _ | _ | htree | _)
      exact ⟨_, ih.mpr htree, rfl⟩
  | group trees ih =>
    rw [branches, mem_branchesOfAll_iff]
    constructor
    · rintro ⟨i, tree, hi, inner, hinner, rfl⟩
      rw [Nat.zero_add]
      exact .group hi ((ih tree (List.mem_of_getElem? hi)).mp hinner)
    · rintro (_ | _ | _ | _ | ⟨hi, htree⟩)
      refine ⟨_, _, hi, _, (ih _ (List.mem_of_getElem? hi)).mpr htree, ?_⟩
      rw [Nat.zero_add]

/-- Members that list their branches from left to right do so as a group. -/
theorem pairwise_branchesOfAll {start : Nat} {trees : List UseTree}
    (htrees : ∀ tree ∈ trees, tree.branches.Pairwise fun a b => a.position < b.position) :
    (branchesOfAll start trees).Pairwise fun a b => a.position < b.position := by
  induction trees generalizing start with
  | nil => exact .nil
  | cons tree trees ih =>
    obtain ⟨htree, hrest⟩ := List.forall_mem_cons.mp htrees
    rw [branchesOfAll]
    refine List.pairwise_append.mpr ⟨?_, ih hrest, ?_⟩
    · exact htree.map _ fun a b hlt => List.cons_lt_cons_iff.mpr (.inr ⟨rfl, hlt⟩)
    · intro a ha b hb
      obtain ⟨inner, -, rfl⟩ := List.mem_map.mp ha
      obtain ⟨i, other, -, inner', -, rfl⟩ := mem_branchesOfAll_iff.mp hb
      exact List.cons_lt_cons_iff.mpr (.inl (by omega))

/-- The branches of an import tree are listed from left to right, each of them once. -/
theorem pairwise_branches (tree : UseTree) :
    tree.branches.Pairwise fun a b => a.position < b.position := by
  induction tree using induction with
  | name leaf => exact List.pairwise_singleton _ _
  | rename leaf bound => exact List.pairwise_singleton _ _
  | glob => exact List.pairwise_singleton _ _
  | path first tree ih => exact ih.map _ fun a b hlt => hlt
  | group trees ih => exact pairwise_branchesOfAll ih

/-! ## Bindings -/

/-- The bindings of members are those of their branches if this is so for each member. -/
theorem bindingsOfAll_eq {rooted : Bool} {front : List String} {start : Nat} {trees : List UseTree}
    (htrees : ∀ tree ∈ trees, tree.bindings rooted front =
      tree.branches.filterMap fun branch => (branch.after front).import? rooted) :
    bindingsOfAll rooted front trees =
      (branchesOfAll start trees).filterMap fun branch => (branch.after front).import? rooted := by
  induction trees generalizing start with
  | nil => rfl
  | cons tree trees ih =>
    obtain ⟨htree, hrest⟩ := List.forall_mem_cons.mp htrees
    rw [bindingsOfAll, branchesOfAll, List.filterMap_append, List.filterMap_map, htree, ih hrest]
    rfl

/-- The bindings of an import tree below some names are the imports of its branches, with these
names before them. -/
theorem bindings_eq (rooted : Bool) (front : List String) (tree : UseTree) :
    tree.bindings rooted front =
      tree.branches.filterMap fun branch => (branch.after front).import? rooted := by
  induction tree using induction generalizing front with
  | name leaf =>
    by_cases hself : leaf = "self"
    · subst hself
      cases hlast : front.getLast? <;>
        simp [bindings, branches, Branch.after, Branch.import?, hlast]
    · simp [bindings, branches, Branch.after, Branch.import?, hself]
  | rename leaf bound =>
    by_cases hbound : bound = "_"
    · simp [bindings, branches, Branch.after, Branch.import?, hbound]
    · by_cases hself : leaf = "self" <;>
        simp [bindings, branches, Branch.after, Branch.import?, hbound, hself]
  | glob => simp [bindings, branches, Branch.after, Branch.import?]
  | path first tree ih =>
    rw [bindings, branches, List.filterMap_map, ih (front ++ [first])]
    refine congrArg (List.filterMap · _) (funext fun branch => ?_)
    rw [Function.comp_apply, Branch.after_below]
  | group trees ih => exact bindingsOfAll_eq fun tree htree => ih tree htree front

example : (UseTree.path "std" (.group [.name "self",
      .path "any" (.group [.name "Any", .rename "TypeId" "_"]), .glob])).bindings true [] =
    [.named "std" ⟨true, ["std"]⟩, .named "Any" ⟨true, ["std", "any", "Any"]⟩,
      .glob ⟨true, ["std"]⟩] := by decide

end UseTree

namespace SymbolTable

open UseTree (Branch)

/-- The bindings of a module are further imports of it. -/
theorem foldl_declare_bindings (table : SymbolTable) (module : ItemPath) (bindings : List Import) :
    (bindings.map (Declaration.binding module)).foldl declare table =
      { table with imports := table.imports ++ bindings.map (ModuleImport.mk module) } := by
  induction bindings generalizing table with
  | nil => simp
  | cons binding bindings ih =>
    rw [List.map_cons, List.foldl_cons, ih]
    simp [declare, addImport]

/-- An import item adds to the imports of its module what its branches stand for, from left to
right, and changes nothing else. One for tests only changes nothing at all. -/
theorem foldl_declare_use (table : SymbolTable) (context : ScanContext) (module : ItemPath)
    (attributes : List Attribute) (rooted : Bool) (tree : UseTree) :
    ∃ branches : List Branch, (∀ branch, branch ∈ branches ↔ tree.Reaches branch) ∧
      (branches.Pairwise fun a b => a.position < b.position) ∧
      (∀ branch : Branch, branch.import? rooted = none ↔ branch.IsSilent) ∧
      ((Item.use attributes rooted tree).declarations context module).foldl declare table =
        if isTestOnly attributes then table
        else { table with imports := table.imports ++
          (branches.filterMap (Branch.import? rooted)).map (ModuleImport.mk module) } := by
  refine ⟨tree.branches, fun branch => UseTree.mem_branches_iff, tree.pairwise_branches,
    fun branch => Branch.import?_eq_none_iff, ?_⟩
  rw [Item.declarations]
  split
  · rfl
  · rw [foldl_declare_bindings, UseTree.bindings_eq]
    rfl

/-- An import that is compiled for tests only. -/
def testImport : Item :=
  .use [⟨false, ["cfg"], .list [.ident "test"]⟩] false (.path "a" (.name "b"))

/-- Although the tree of the import has a branch that stands for an import, nothing is added. -/
theorem foldl_declare_testImport :
    (UseTree.path "a" (.name "b")).Reaches ⟨[], ["a"], .name "b"⟩ ∧
      Branch.import? false ⟨[], ["a"], .name "b"⟩ = some (.named "b" ⟨false, ["a", "b"]⟩) ∧
      ∀ context module table,
        (testImport.declarations context module).foldl declare table = table := by
  refine ⟨.path (.name "b"), rfl, fun context module table => ?_⟩
  rw [Item.declarations_of_isForTests (by decide)]
  rfl

end SymbolTable

end ServiceDispatch
