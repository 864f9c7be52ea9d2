import ServiceDispatch.Proofs.Soundness.Scopes

/-!
# The tree of paths

The paths of a crate form a tree below its root. A member is one step deeper than the path it is a
member of, which is its parent; the parents lead to the root in as many steps as the path is deep;
and a path is under just those that it meets on this way.
-/

namespace ServiceDispatch.ItemPath

variable {p q r : ItemPath} {name : String}

/-! ## Taking parents -/

/-- The path that is reached by taking the parent some times, if there is one. -/
def above (p : ItemPath) : Nat → Option ItemPath
  | 0 => some p
  | n + 1 => p.parent?.bind fun parent => parent.above n

/-- Nothing is above the root, at any number of steps. -/
theorem above_root (n : Nat) : root.above (n + 1) = none := by
  rw [above, parent?_root]
  rfl

/-- Above a member stands what stands above its parent, one step further. -/
theorem InCrate.above_join (hp : p.InCrate) (hname : IsSegment name) (n : Nat) :
    (p.join name).above (n + 1) = p.above n := by
  obtain ⟨names, hnames, rfl⟩ := hp
  rw [above, ← ofNames_append, parent?_ofNames hname]
  rfl

/-! ## Depths -/

/-- The root is at the top, at depth zero. -/
theorem depth_root : root.depth = 0 := by decide

/-- A member is one step deeper than its module, provided that its name is a segment. -/
theorem InCrate.depth_join (hp : p.InCrate) (hname : IsSegment name) :
    (p.join name).depth = p.depth + 1 := by
  have hpos : 0 < p.segments.length := by
    obtain ⟨names, hnames, rfl⟩ := hp
    rw [segments_ofNames hnames]
    exact Nat.succ_pos _
  rw [depth, depth, hp.segments_join hname, List.length_append, List.length_singleton]
  omega

/-- No member is the root, since it has a segment more than its module. -/
theorem InCrate.join_ne_root (hp : p.InCrate) (hname : IsSegment name) : p.join name ≠ root := by
  intro heq
  have hdepth := hp.depth_join hname
  rw [heq, depth_root] at hdepth
  omega

/-- Only the root has no parent. Among all paths of the crate this is the only one, so the way up
ends nowhere else. -/
theorem InCrate.parent?_eq_none_iff (hp : p.InCrate) : p.parent? = none ↔ p = root := by
  refine InCrate.induction (motive := fun p => p.parent? = none ↔ p = root) ?_ ?_ hp
  · exact iff_of_true parent?_root rfl
  · intro p name hp hname _
    refine iff_of_false ?_ (hp.join_ne_root hname)
    obtain ⟨names, hnames, rfl⟩ := hp
    rw [← ofNames_append, parent?_ofNames hname]
    exact nofun

/-- The parents lead to the root in as many steps as the path is deep. -/
theorem InCrate.above_eq_root_iff (hp : p.InCrate) (n : Nat) :
    p.above n = some root ↔ n = p.depth := by
  refine InCrate.induction (motive := fun p => ∀ n, p.above n = some root ↔ n = p.depth) ?_ ?_ hp n
  · intro n
    rw [depth_root]
    cases n with
    | zero => exact iff_of_true rfl rfl
    | succ n =>
      rw [above_root]
      exact iff_of_false nofun n.succ_ne_zero
  · intro p name hp hname ih n
    rw [hp.depth_join hname]
    cases n with
    | zero =>
      refine iff_of_false ?_ (Nat.succ_ne_zero _).symm
      exact fun heq => hp.join_ne_root hname (Option.some.inj heq)
    | succ n => rw [hp.above_join hname, ih, Nat.succ_inj]

/-! ## The order -/

/-- A path is under those that are reached from it by taking parents. -/
theorem InCrate.isUnder_iff_above (hp : p.InCrate) (hq : q.InCrate) :
    p.isUnder q ↔ ∃ n, p.above n = some q := by
  refine InCrate.induction (motive := fun p => p.isUnder q ↔ ∃ n, p.above n = some q) ?_ ?_ hp
  · constructor
    · intro hunder
      exact ⟨0, congrArg some (hq.eq_root hunder).symm⟩
    · rintro ⟨n, hn⟩
      cases n with
      | zero => exact Option.some.inj hn ▸ root.isUnder_self
      | succ n => exact nomatch (above_root n).symm.trans hn
  · intro p name hp hname ih
    rw [hp.isUnder_join_iff hq hname, ih]
    constructor
    · rintro (rfl | ⟨n, hn⟩)
      · exact ⟨0, rfl⟩
      · exact ⟨n + 1, (hp.above_join hname n).trans hn⟩
    · rintro ⟨n, hn⟩
      cases n with
      | zero => exact .inl (Option.some.inj hn).symm
      | succ n => exact .inr ⟨n, (hp.above_join hname n).symm.trans hn⟩

/-- Two paths that are under each other are the same. With reflexivity and transitivity this makes
the paths of a crate a partial order. -/
theorem InCrate.isUnder_antisymm (hp : p.InCrate) (hq : q.InCrate) (hpq : p.isUnder q)
    (hqp : q.isUnder p) : p = q := by
  rw [isUnder_iff] at hpq hqp
  exact hp.eq_of_segments hq (hqp.eq_of_length_le hpq.length_le)

/-- Of two paths above the same path, one is under the other. -/
theorem isUnder_or_isUnder (hpq : p.isUnder q) (hpr : p.isUnder r) :
    q.isUnder r ∨ r.isUnder q := by
  rw [isUnder_iff] at hpq hpr
  rw [isUnder_iff, isUnder_iff]
  exact (List.prefix_or_prefix_of_prefix hpq hpr).symm

/-- The paths of a crate are the nodes of a tree. A member has the path as its parent, its name as
its last segment, and is one step deeper. Only the root has no parent, and it is reached by the
parents in as many steps as a path is deep. Being under a path is an order; a path is under itself
and what its parents lead to; and the paths that it is under are a chain. The hypotheses exclude
texts that are no paths of the crate, such as one with an empty segment. -/
theorem inCrate_tree (hp : p.InCrate) (hq : q.InCrate) (hname : IsSegment name) :
    ((p.join name).parent? = some p ∧ (p.join name).terminal = name ∧
        (p.join name).depth = p.depth + 1) ∧
      ((p.parent? = none ↔ p = root) ∧ ∀ n, p.above n = some root ↔ n = p.depth) ∧
      (p.isUnder p ∧ (p.isUnder q → q.isUnder p → p = q) ∧
        (p.isUnder q → q.isUnder r → p.isUnder r)) ∧
      (p.isUnder q ↔ ∃ n, p.above n = some q) ∧
      (p.isUnder q → p.isUnder r → q.isUnder r ∨ r.isUnder q) := by
  have hparent : (p.join name).parent? = some p := by
    obtain ⟨names, hnames, rfl⟩ := hp
    rw [← ofNames_append]
    exact parent?_ofNames hname
  refine ⟨⟨hparent, hp.terminal_join hname, hp.depth_join hname⟩,
    ⟨hp.parent?_eq_none_iff, hp.above_eq_root_iff⟩, ⟨p.isUnder_self, ?_, isUnder_trans⟩,
    hp.isUnder_iff_above hq, isUnder_or_isUnder⟩
  exact hp.isUnder_antisymm hq

/-- The module `crate::hos::services` is two steps below the root and is under `crate::hos`, but not
under `crate::ho`, whose name is only the beginning of a name. -/
theorem inCrate_tree_services :
    (∀ n, (ofNames ["hos", "services"]).above n = some root ↔ n = 2) ∧
      (ofNames ["hos", "services"]).isUnder (ofNames ["hos"]) ∧
      ¬ ∃ n, (ofNames ["hos", "services"]).above n = some (ofNames ["ho"]) := by
  have hservices : (ofNames ["hos", "services"]).InCrate := ⟨_, by decide, rfl⟩
  have hhos : (ofNames ["hos"]).InCrate := ⟨_, by decide, rfl⟩
  have hho : (ofNames ["ho"]).InCrate := ⟨_, by decide, rfl⟩
  have htree := inCrate_tree hservices hhos (r := root) (show IsSegment "acc" by decide)
  have hother := inCrate_tree hservices hho (r := root) (show IsSegment "acc" by decide)
  refine ⟨htree.2.1.2, htree.2.2.2.1.mpr ⟨1, by decide⟩, fun habove => ?_⟩
  exact absurd (hother.2.2.2.1.mpr habove) (by decide)

end ServiceDispatch.ItemPath
