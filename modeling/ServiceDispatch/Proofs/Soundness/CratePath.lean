import Mathlib.Data.List.Induction
import Mathlib.Data.List.Infix
import ServiceDispatch.ItemPath

/-!
# Paths of a crate

A path that is the root followed by names splits into the root and these names. Its parent is
the path without the last name, and its ancestors are the paths with fewer of the names.
-/

namespace ServiceDispatch

/-! ## Texts -/

/-- A text without colons has one part, the text itself. A segment is such a text, so this is where
the reading of a path ends. -/
theorem splitColons_of_not_mem {cs : List Char} (hcs : ':' ∉ cs) : splitColons cs = [cs] := by
  induction cs with
  | nil => rfl
  | cons c cs ih =>
    obtain ⟨hc, hrest⟩ := not_or.mp fun h => hcs (List.mem_cons.mpr h)
    rw [splitColons, ih hrest]
    intro rest hcolon
    exact absurd hcolon.symm hc

/-- A text without colons is the first part of what it begins. -/
theorem splitColons_append {cs : List Char} (hcs : ':' ∉ cs) (rest : List Char) :
    splitColons (cs ++ ':' :: ':' :: rest) = cs :: splitColons rest := by
  induction cs with
  | nil => rfl
  | cons c cs ih =>
    obtain ⟨hc, hrest⟩ := not_or.mp fun h => hcs (List.mem_cons.mpr h)
    rw [List.cons_append, splitColons, ih hrest]
    intro rest hcolon
    exact absurd hcolon.symm hc

/-- A text without colons has nothing before a separator, which is why the root of a crate has no
parent. -/
theorem beforeLastColons_of_not_mem {cs : List Char} (hcs : ':' ∉ cs) :
    beforeLastColons cs = none := by
  induction cs with
  | nil => rfl
  | cons c cs ih =>
    obtain ⟨hc, hrest⟩ := not_or.mp fun h => hcs (List.mem_cons.mpr h)
    rw [beforeLastColons, ih hrest]
    intro tail hcolon
    exact absurd hcolon.symm hc

/-- The last separator stands before the last text without colons, however many separators the text
before it has. -/
theorem beforeLastColons_append {cs : List Char} (hcs : ':' ∉ cs) (front : List Char) :
    beforeLastColons (front ++ ':' :: ':' :: cs) = some front := by
  induction front with
  | nil =>
    have hone : beforeLastColons (':' :: cs) = none := by
      rw [beforeLastColons, beforeLastColons_of_not_mem hcs]
      rintro tail - rfl
      exact hcs List.mem_cons_self
    rw [List.nil_append, beforeLastColons, hone]
  | cons c front ih => simp only [List.cons_append, beforeLastColons, ih]

/-! ## Paths -/

namespace ItemPath

/-- The path of the root and some names. -/
def ofNames (names : List String) : ItemPath := names.foldl join root

/-- One more name is a member. Both the names of a path and its text grow at the end. -/
theorem ofNames_append (names : List String) (name : String) :
    ofNames (names ++ [name]) = (ofNames names).join name := by
  rw [ofNames, List.foldl_append]
  rfl

/-- Whether a path is the root and names that can be segments. -/
def InCrate (p : ItemPath) : Prop := ∃ names, (∀ name ∈ names, IsSegment name) ∧ p = ofNames names

/-- The root is in the crate, as the path of no names. -/
theorem inCrate_root : root.InCrate := ⟨[], fun _ h => absurd h List.not_mem_nil, rfl⟩

/-- A member of a path of the crate is in the crate. -/
theorem InCrate.join {p : ItemPath} (hp : p.InCrate) {name : String} (hname : IsSegment name) :
    (p.join name).InCrate := by
  obtain ⟨names, hnames, rfl⟩ := hp
  have hall := List.forall_mem_append.mpr ⟨hnames, List.forall_mem_singleton.mpr hname⟩
  exact ⟨names ++ [name], hall, (ofNames_append names name).symm⟩

/-- The characters of a path are those of the word `crate`, followed by each name behind a
separator. -/
theorem toList_ofNames (names : List String) :
    (ofNames names).text.toList =
      "crate".toList ++ names.flatMap fun name => ':' :: ':' :: name.toList := by
  induction names using List.reverseRecOn with
  | nil => rfl
  | append_singleton names name ih =>
    have hjoin (p : ItemPath) : (p.join name).text.toList =
        p.text.toList ++ ':' :: ':' :: name.toList := by simp [join]
    rw [ofNames_append, hjoin, ih, List.flatMap_append]
    simp

/-- The parts of a text of names are the text before the names and the names. No name has a colon,
so each separator is one that was put there. -/
theorem splitColons_flatMap {cs : List Char} (hcs : ':' ∉ cs) {names : List String}
    (hnames : ∀ name ∈ names, IsSegment name) :
    splitColons (cs ++ names.flatMap fun name => ':' :: ':' :: name.toList) =
      cs :: names.map String.toList := by
  induction names generalizing cs with
  | nil => simpa using splitColons_of_not_mem hcs
  | cons name names ih =>
    obtain ⟨hname, hrest⟩ := List.forall_mem_cons.mp hnames
    rw [List.flatMap_cons, List.cons_append, List.cons_append, splitColons_append hcs,
      ih hname.2 hrest, List.map_cons]

/-- The segments of a path are the root and its names. -/
theorem segments_ofNames {names : List String} (hnames : ∀ name ∈ names, IsSegment name) :
    (ofNames names).segments = "crate" :: names := by
  have hne : ∀ part ∈ "crate".toList :: names.map String.toList, decide (part ≠ []) = true := by
    intro part hpart
    rw [List.mem_cons, List.mem_map] at hpart
    rcases hpart with rfl | ⟨name, hname, rfl⟩
    · rfl
    · exact decide_eq_true fun hempty => (hnames name hname).1 (String.toList_eq_nil_iff.mp hempty)
  rw [segments, toList_ofNames, splitColons_flatMap (by decide) hnames,
    List.filter_eq_self.mpr hne, List.map_cons, List.map_map]
  congr 1
  exact List.map_id'' (fun name => String.ofList_toList) names

/-- The names of a path of the crate are determined by it. -/
theorem ofNames_inj {names other : List String} (hnames : ∀ name ∈ names, IsSegment name)
    (hother : ∀ name ∈ other, IsSegment name) : ofNames names = ofNames other ↔ names = other := by
  constructor
  · intro heq
    have hsegments := congrArg segments heq
    rw [segments_ofNames hnames, segments_ofNames hother] at hsegments
    exact (List.cons.inj hsegments).2
  · rintro rfl
    rfl

/-- A path of the crate is determined by its segments, so two paths with the same segments have the
same text. -/
theorem InCrate.eq_of_segments {p q : ItemPath} (hp : p.InCrate) (hq : q.InCrate)
    (hsegments : p.segments = q.segments) : p = q := by
  obtain ⟨names, hnames, rfl⟩ := hp
  obtain ⟨names', hnames', rfl⟩ := hq
  rw [segments_ofNames hnames, segments_ofNames hnames'] at hsegments
  rw [(List.cons.inj hsegments).2]

/-- The parent of a member is the path, if the name of the member is no path itself. -/
theorem parent?_join {p : ItemPath} (hp : p.text.toList ≠ []) {name : String}
    (hname : ':' ∉ name.toList) : (p.join name).parent? = some p := by
  have htext : (p.join name).text.toList = p.text.toList ++ ':' :: ':' :: name.toList := by
    simp [join]
  rw [parent?, htext, beforeLastColons_append hname]
  cases hfront : p.text.toList with
  | nil => exact absurd hfront hp
  | cons c front =>
    show some (mk (String.ofList (c :: front))) = some p
    rw [← hfront, String.ofList_toList]

/-- The parent is the path without the last name. The last separator of the text is the one before
that name, because the name has no colon. -/
theorem parent?_ofNames {names : List String} {name : String} (hname : IsSegment name) :
    (ofNames (names ++ [name])).parent? = some (ofNames names) := by
  rw [ofNames_append]
  refine parent?_join ?_ hname.2
  rw [toList_ofNames]
  exact List.append_ne_nil_of_left_ne_nil (by decide) _

/-- The root has no parent, since its text has no separator. -/
theorem parent?_root : root.parent? = none := by decide

/-- The ancestors of a path are its parent and the ancestors of that. -/
theorem ancestors_of_parent? {p q : ItemPath} (hparent : p.parent? = some q) :
    p.ancestors = q :: q.ancestors := by
  rw [ancestors]
  split
  · rename_i q' hq'
    rw [hparent] at hq'
    rw [Option.some.inj hq']
  · rename_i hnone
    rw [hparent] at hnone
    simp at hnone

/-- The root has no ancestors, which ends the way up from any module. -/
theorem ancestors_root : root.ancestors = [] := by
  rw [ancestors]
  split
  · rename_i q hq
    rw [parent?_root] at hq
    simp at hq
  · rfl

/-- The ancestors of a member are the path and its ancestors. -/
theorem InCrate.ancestors_join {p : ItemPath} (hp : p.InCrate) {name : String}
    (hname : IsSegment name) : (p.join name).ancestors = p :: p.ancestors := by
  obtain ⟨names, hnames, rfl⟩ := hp
  rw [← ofNames_append]
  exact ancestors_of_parent? (parent?_ofNames hname)

/-- One more name is one more segment. The name is required to be a segment, since a name with a
separator in it would be two. -/
theorem InCrate.segments_join {p : ItemPath} (hp : p.InCrate) {name : String}
    (hname : IsSegment name) : (p.join name).segments = p.segments ++ [name] := by
  have hjoin := hp.join hname
  obtain ⟨names, hnames, rfl⟩ := hp
  have hnames' : ∀ other ∈ names ++ [name], IsSegment other :=
    List.forall_mem_append.mpr ⟨hnames, List.forall_mem_singleton.mpr hname⟩
  rw [← ofNames_append, segments_ofNames hnames', segments_ofNames hnames, List.cons_append]

/-- The last segment of a member is its name, so a member of a module can be found by its name. -/
theorem InCrate.terminal_join {p : ItemPath} (hp : p.InCrate) {name : String}
    (hname : IsSegment name) : (p.join name).terminal = name := by
  rw [terminal, hp.segments_join hname, List.getLast?_append]
  rfl

/-- Paths of the crate are built from the root by members. -/
theorem InCrate.induction {motive : ItemPath → Prop} (hroot : motive root)
    (hjoin : ∀ p name, p.InCrate → IsSegment name → motive p → motive (p.join name))
    {p : ItemPath} (hp : p.InCrate) : motive p := by
  obtain ⟨names, hnames, rfl⟩ := hp
  induction names using List.reverseRecOn with
  | nil => exact hroot
  | append_singleton names name ih =>
    have hfront : ∀ other ∈ names, IsSegment other :=
      fun other hother => hnames other (List.mem_append_left _ hother)
    rw [ofNames_append]
    exact hjoin _ _ ⟨names, hfront, rfl⟩ (hnames name (by simp)) (ih hfront)

/-- A path is under another one if it begins with its segments. -/
theorem isUnder_iff {p q : ItemPath} : p.isUnder q ↔ q.segments <+: p.segments :=
  List.isPrefixOf_iff_prefix

/-- Every path of the crate is under the root. Paths of other crates are not, so the hypothesis
cannot be left out. -/
theorem InCrate.isUnder_root {p : ItemPath} (hp : p.InCrate) : p.isUnder root := by
  obtain ⟨names, hnames, rfl⟩ := hp
  rw [isUnder_iff, segments_ofNames hnames, show root.segments = ["crate"] by decide]
  exact ⟨names, rfl⟩

/-- Only the root is above the root. -/
theorem InCrate.eq_root {q : ItemPath} (hq : q.InCrate) (hunder : root.isUnder q) : q = root := by
  obtain ⟨names, hnames, rfl⟩ := hq
  rw [isUnder_iff, segments_ofNames hnames, show root.segments = ["crate"] by decide,
    List.cons_prefix_cons, List.prefix_nil] at hunder
  rw [hunder.2]
  rfl

/-- A member is under the same paths as its module, and under itself. -/
theorem InCrate.isUnder_join_iff {p q : ItemPath} (hp : p.InCrate) (hq : q.InCrate) {name : String}
    (hname : IsSegment name) : (p.join name).isUnder q ↔ q = p.join name ∨ p.isUnder q := by
  rw [isUnder_iff, isUnder_iff, hp.segments_join hname, List.prefix_concat_iff,
    ← hp.segments_join hname]
  constructor
  · rintro (heq | hprefix)
    · exact .inl (hq.eq_of_segments (hp.join hname) heq)
    · exact .inr hprefix
  · rintro (rfl | hprefix)
    · exact .inl rfl
    · exact .inr hprefix

/-- No path is under its members, so the way from a module to its members never comes back. -/
theorem InCrate.not_isUnder_join {p : ItemPath} (hp : p.InCrate) {name : String}
    (hname : IsSegment name) : ¬ p.isUnder (p.join name) := by
  intro hunder
  have hlength := (isUnder_iff.mp hunder).length_le
  rw [hp.segments_join hname, List.length_append, List.length_singleton] at hlength
  omega

/-- The ancestors of a path of the crate are the other paths that it is under. No path is under its
own members, so no ancestor is the path itself. -/
theorem InCrate.mem_ancestors_iff {p q : ItemPath} (hp : p.InCrate) (hq : q.InCrate) :
    q ∈ p.ancestors ↔ p.isUnder q ∧ q ≠ p := by
  refine InCrate.induction (motive := fun p => q ∈ p.ancestors ↔ p.isUnder q ∧ q ≠ p) ?_ ?_ hp
  · rw [ancestors_root]
    constructor
    · intro hmem
      exact absurd hmem List.not_mem_nil
    · rintro ⟨hunder, hne⟩
      exact absurd (hq.eq_root hunder) hne
  · intro p name hp hname ih
    rw [hp.ancestors_join hname, List.mem_cons, ih, hp.isUnder_join_iff hq hname]
    constructor
    · rintro (rfl | ⟨hunder, -⟩)
      · refine ⟨.inr (isUnder_iff.mpr List.prefix_rfl), ?_⟩
        intro heq
        exact hq.not_isUnder_join hname (heq ▸ isUnder_iff.mpr List.prefix_rfl)
      · refine ⟨.inr hunder, ?_⟩
        rintro rfl
        exact hp.not_isUnder_join hname hunder
    · rintro ⟨heq | hunder, hne⟩
      · exact absurd heq hne
      · by_cases hself : q = p
        · exact .inl hself
        · exact .inr ⟨hunder, hself⟩

end ItemPath

end ServiceDispatch
