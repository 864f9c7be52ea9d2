import Mathlib.Data.List.Nodup
import Mathlib.Data.String.Basic
import ServiceDispatch.CrateScan
import ServiceDispatch.Proofs.Files.Writing

/-!
# Walking through a tree

A walk visits the files below a directory in the order of their places, whatever the order in which
the tree holds them. A new file is one more stop, and all others keep their order.
-/

namespace ServiceDispatch.Files.FileTree

/-- In a tree whose places are in order, a walk keeps this order. -/
theorem below_of_pairwise {tree : FileTree}
    (hsorted : tree.nodes.Pairwise fun a b => comesBefore a.1 b.1) (directory : Location) :
    tree.below directory =
      (tree.nodes.filter fun (location, _) =>
        directory.isPrefixOf location && directory.length < location.length).map
          fun (location, node) => (location.drop directory.length, node) := by
  have hinside := hsorted.filter fun (location, _) =>
    directory.isPrefixOf location && decide (directory.length < location.length)
  rw [below, List.mergeSort_of_pairwise hinside]

/-! ## The order of places -/

/-- Of two places one comes before the other, so that places can be sorted. -/
theorem comesBefore_total (a b : Location) : comesBefore a b || comesBefore b a := by
  induction a generalizing b with
  | nil => rfl
  | cons x xs ih =>
    cases b with
    | nil => rfl
    | cons y ys =>
      rcases lt_trichotomy x y with hlt | rfl | hgt
      · simp [comesBefore, hlt]
      · simpa [comesBefore] using ih ys
      · simp [comesBefore, hgt]

/-- What comes before a place comes before those after it. -/
theorem comesBefore_trans {a b c : Location} (hab : comesBefore a b) (hbc : comesBefore b c) :
    comesBefore a c := by
  induction a generalizing b c with
  | nil => rfl
  | cons x xs ih =>
    cases b with
    | nil => exact nomatch hab
    | cons y ys =>
      cases c with
      | nil => exact nomatch hbc
      | cons z zs =>
        simp only [comesBefore, Bool.or_eq_true, Bool.and_eq_true, decide_eq_true_iff,
          beq_iff_eq] at hab hbc ⊢
        rcases hab with hxy | ⟨rfl, hxs⟩
        · rcases hbc with hyz | ⟨rfl, -⟩
          · exact .inl (lt_trans hxy hyz)
          · exact .inl hxy
        · rcases hbc with hyz | ⟨rfl, hys⟩
          · exact .inl hyz
          · exact .inr ⟨rfl, ih hxs hys⟩

/-- Two places that come before each other are the same. -/
theorem eq_of_comesBefore {a b : Location} (hab : comesBefore a b) (hba : comesBefore b a) :
    a = b := by
  induction a generalizing b with
  | nil =>
    cases b with
    | nil => rfl
    | cons y ys => exact nomatch hba
  | cons x xs ih =>
    cases b with
    | nil => exact nomatch hab
    | cons y ys =>
      simp only [comesBefore, Bool.or_eq_true, Bool.and_eq_true, decide_eq_true_iff,
        beq_iff_eq] at hab hba
      rcases hab with hxy | ⟨rfl, hxs⟩
      · rcases hba with hyx | ⟨rfl, -⟩
        · exact absurd (lt_trans hxy hyx) (lt_irrefl x)
        · exact absurd hxy (lt_irrefl _)
      · rcases hba with hyx | ⟨-, hys⟩
        · exact absurd hyx (lt_irrefl x)
        · rw [ih hxs hys]

/-! ## One more file -/

/-- Whether no two nodes of a tree have the same place. -/
def IsDistinct (tree : FileTree) : Prop := (tree.nodes.map (·.1)).Nodup

instance (tree : FileTree) : Decidable tree.IsDistinct := inferInstanceAs (Decidable (List.Nodup _))

/-- Whether the place of one node comes before that of another one. -/
def nodeBefore (a b : Location × FileNode) : Bool := comesBefore a.1 b.1

/-- What comes before a node comes before those after it. -/
theorem nodeBefore_trans (a b c : Location × FileNode) (hab : nodeBefore a b)
    (hbc : nodeBefore b c) : nodeBefore a c :=
  comesBefore_trans hab hbc

/-- Of two nodes one comes before the other, by their places. -/
theorem nodeBefore_total (a b : Location × FileNode) : nodeBefore a b || nodeBefore b a :=
  comesBefore_total a.1 b.1

/-- Nodes with different places are sorted alike in every order. -/
theorem mergeSort_eq_of_perm {nodes nodes' : List (Location × FileNode)}
    (hperm : nodes.Perm nodes') (hnodup : (nodes.map (·.1)).Nodup) :
    nodes.mergeSort nodeBefore = nodes'.mergeSort nodeBefore := by
  have hsorted := List.pairwise_mergeSort nodeBefore_trans nodeBefore_total
  have hperm' := (List.mergeSort_perm nodes nodeBefore).trans
    (hperm.trans (List.mergeSort_perm nodes' nodeBefore).symm)
  refine hperm'.eq_of_pairwise ?_ (hsorted nodes) (hsorted nodes')
  intro a b ha hb hab hba
  have ha' := (List.mergeSort_perm nodes nodeBefore).mem_iff.mp ha
  have hb' := hperm.mem_iff.mpr ((List.mergeSort_perm nodes' nodeBefore).mem_iff.mp hb)
  exact List.inj_on_of_nodup_map hnodup ha' hb' (eq_of_comesBefore hab hba)

/-- Where nothing stands there is no node, so that every node has another place. -/
theorem ne_of_node?_eq_none {tree : FileTree} {target : Location}
    (htarget : tree.node? target = none) {pair : Location × FileNode}
    (hpair : pair ∈ tree.nodes) : pair.1 ≠ target := by
  rintro rfl
  rw [node?] at htarget
  split at htarget
  · cases htarget
  · rw [List.lookup_eq_none_iff] at htarget
    exact absurd rfl (bne_iff_ne.mp (htarget pair hpair))

/-- What stands in a directory is below it, under its own name. -/
theorem mem_below {tree : FileTree} {location : Location} {name : String} {node : FileNode}
    (hnode : tree.node? (location ++ [name]) = some node) :
    ([name], node) ∈ tree.below location := by
  have hmem : (location ++ [name], node) ∈ tree.nodes := by
    rw [node?, if_neg (by simp)] at hnode
    obtain ⟨front, back, hnodes, -⟩ := List.lookup_eq_some_iff.mp hnode
    simp [hnodes]
  refine List.mem_map.mpr ⟨(location ++ [name], node), ?_, by simp⟩
  refine (List.mergeSort_perm _ _).mem_iff.mpr (List.mem_filter.mpr ⟨hmem, by simp⟩)

/-- A file put into a directory where there was nothing is one more file below it. What is below is
sorted, and as the locations differ it does not matter where the new node was inserted. -/
theorem exists_below_set {tree : FileTree} (hdistinct : tree.IsDistinct) {location : Location}
    {name : String} (hfree : tree.node? (location ++ [name]) = none) (node : FileNode) :
    ∃ front back, tree.below location = front ++ back ∧
      (tree.set (location ++ [name]) node).below location = front ++ ([name], node) :: back := by
  let inside := tree.nodes.filter fun (other, _) =>
    location.isPrefixOf other && decide (location.length < other.length)
  have hnodes : (tree.set (location ++ [name]) node).nodes =
      tree.nodes ++ [(location ++ [name], node)] := by
    rw [set, List.filter_eq_self.mpr]
    exact fun pair hpair => decide_eq_true (ne_of_node?_eq_none hfree hpair)
  have hinside : (tree.set (location ++ [name]) node).nodes.filter (fun (other, _) =>
      location.isPrefixOf other && decide (location.length < other.length)) =
        inside ++ [(location ++ [name], node)] := by
    rw [hnodes, List.filter_append, List.filter_cons_of_pos, List.filter_nil]
    simp
  have hnodup : ((inside ++ [(location ++ [name], node)]).map (·.1)).Nodup := by
    rw [List.map_append, List.map_singleton, List.nodup_append]
    refine ⟨hdistinct.sublist (List.filter_sublist.map _), List.nodup_singleton _, ?_⟩
    intro other hother target htarget
    obtain ⟨pair, hpair, rfl⟩ := List.mem_map.mp hother
    rw [List.mem_singleton.mp htarget]
    exact ne_of_node?_eq_none hfree (List.mem_of_mem_filter hpair)
  obtain ⟨front, back, hafter, hbefore, -⟩ := List.mergeSort_cons nodeBefore_trans nodeBefore_total
    (location ++ [name], node) inside
  have hsorted : (inside ++ [(location ++ [name], node)]).mergeSort nodeBefore =
      front ++ (location ++ [name], node) :: back := by
    rw [mergeSort_eq_of_perm (List.perm_append_singleton _ _) hnodup, hafter]
  let strip : Location × FileNode → Location × FileNode := fun (other, node) =>
    (other.drop location.length, node)
  refine ⟨front.map strip, back.map strip, ?_, ?_⟩
  · have hbelow : tree.below location = (inside.mergeSort nodeBefore).map strip := rfl
    rw [hbelow, hbefore, List.map_append]
  · have hbelow : (tree.set (location ++ [name]) node).below location =
        ((inside ++ [(location ++ [name], node)]).mergeSort nodeBefore).map strip := by
      rw [← hinside]
      rfl
    rw [hbelow, hsorted, List.map_append, List.map_cons]
    simp [strip]

end ServiceDispatch.Files.FileTree
