import Mathlib.Data.List.Basic
import Mathlib.Data.Option.Basic
import ServiceDispatch.Files.FileTree

/-!
# Writing a file into a directory

A path that leads to a directory leads, with a file name at its end, to the file of this name in the
directory. A new file there is found under this path, and everything else stays where it was.
-/

namespace ServiceDispatch

namespace Text

variable {α : Type} {p : α → Bool}

/-- A list without separators is one piece. -/
theorem splitAtEach_of_not {cs : List α} (hcs : ∀ c ∈ cs, p c = false) :
    splitAtEach p cs = [cs] := by
  induction cs with
  | nil => rfl
  | cons c cs ih =>
    obtain ⟨hc, hrest⟩ := List.forall_mem_cons.mp hcs
    rw [splitAtEach, hc, if_neg Bool.false_ne_true, ih hrest]

/-- The pieces around a separator are those in front of it and those behind it. -/
theorem splitAtEach_append {c : α} (hc : p c) (front back : List α) :
    splitAtEach p (front ++ c :: back) = splitAtEach p front ++ splitAtEach p back := by
  induction front with
  | nil => simp [splitAtEach, hc]
  | cons d front ih =>
    rw [List.cons_append, splitAtEach, splitAtEach, ih]
    split
    · rfl
    · obtain ⟨piece, pieces, hpieces⟩ := List.exists_cons_of_ne_nil (splitAtEach_ne_nil p front)
      rw [hpieces]
      rfl

end Text

namespace Files

/-- Whether a text can name a file in a directory. -/
def IsFileName (name : String) : Prop :=
  name ≠ "" ∧ name ≠ "." ∧ name ≠ ".." ∧ '/' ∉ name.toList

instance (name : String) : Decidable (IsFileName name) := inferInstanceAs (Decidable (_ ∧ _))

/-- A path starts at the working directory unless it is empty or starts with a slash. -/
theorem FileTree.isRelative_iff {p : FilePath} :
    FileTree.isRelative p ↔ p.text ≠ "" ∧ p.text.toList.head? ≠ some '/' := by
  rw [FileTree.isRelative, Bool.and_eq_true, decide_eq_true_iff, decide_eq_true_iff]

namespace FilePath

/-! ## Paths with a name at their end -/

/-- A file name is one of the names of a path. -/
theorem componentOf?_of_isFileName {name : String} (hname : IsFileName name) :
    componentOf? name = some (.name name) := by
  obtain ⟨hempty, hhere, hup, -⟩ := hname
  rw [componentOf?, if_neg (not_or.mpr ⟨hempty, hhere⟩), if_neg hup]

/-- The pieces of a text around a slash. -/
theorem splitAtEach_slash (front back : List Char) :
    Text.splitAtEach (· == '/') (front ++ '/' :: back) =
      Text.splitAtEach (· == '/') front ++ Text.splitAtEach (· == '/') back :=
  Text.splitAtEach_append (p := (· == '/')) rfl front back

/-- A file name is one piece. -/
theorem splitAtEach_of_isFileName {name : String} (hname : IsFileName name) :
    Text.splitAtEach (· == '/') name.toList = [name.toList] :=
  Text.splitAtEach_of_not fun _ hc => beq_eq_false_iff_ne.mpr fun heq =>
    hname.2.2.2 (heq ▸ hc)

/-- The pieces of a text before a slash, and the file name after it. -/
theorem names_append {text name : String} {front : List Char} (hname : IsFileName name)
    (htext : text.toList = front ++ '/' :: name.toList) :
    (FilePath.mk text).names =
      (Text.splitAtEach (· == '/') front).map String.ofList ++ [name] := by
  rw [names, Text.splitAtChar, htext, splitAtEach_slash, splitAtEach_of_isFileName hname,
    List.map_append, List.map_singleton, String.ofList_toList]

/-- A path with a file name at its end starts as the path does, and has its names, but perhaps not
the empty name after its last slash, and the file name. -/
theorem exists_names_join {p : FilePath} (hp : p.text ≠ "") {name : String}
    (hname : IsFileName name) :
    ∃ front, (p.join name).names = front ++ [name] ∧
      (p.join name).text.toList.head? = p.text.toList.head? ∧
      front ≠ [] ∧ (p.names = front ∨ p.names = front ++ [""]) := by
  have hplain : ¬ (name.toList.head? = some '/' ∨ p.text = "") := by
    rintro (h | h)
    · exact hname.2.2.2 (List.mem_of_mem_head? h)
    · exact hp h
  have hchars : p.text.toList ≠ [] := fun h => hp (String.toList_eq_nil_iff.mp h)
  rw [join, if_neg hplain]
  split
  · rename_i hlast
    obtain ⟨front, hfront⟩ := List.getLast?_eq_some_iff.mp hlast
    have htext : (p.text ++ name).toList = front ++ '/' :: name.toList := by
      rw [String.toList_append, hfront, List.append_assoc, List.singleton_append]
    refine ⟨_, names_append hname htext, ?_, ?_, .inr ?_⟩
    · rw [String.toList_append, List.head?_append_of_ne_nil _ hchars]
    · exact fun h => Text.splitAtEach_ne_nil _ _ (List.map_eq_nil_iff.mp h)
    · rw [names, Text.splitAtChar, hfront, splitAtEach_slash,
        List.map_append]
      rfl
  · have htext : (p.text ++ "/" ++ name).toList = p.text.toList ++ '/' :: name.toList := by
      rw [String.toList_append, String.toList_append, List.append_assoc]
      rfl
    refine ⟨_, names_append hname htext, ?_, ?_, .inl rfl⟩
    · rw [htext, List.head?_append_of_ne_nil _ hchars]
    · exact fun h => Text.splitAtEach_ne_nil _ _ (List.map_eq_nil_iff.mp h)

/-- A path that starts at the working directory does so with a file name at its end. -/
theorem isRelative_join {p : FilePath} (hp : FileTree.isRelative p) {name : String}
    (hname : IsFileName name) : FileTree.isRelative (p.join name) := by
  obtain ⟨hne, hhead⟩ := FileTree.isRelative_iff.mp hp
  obtain ⟨front, hnames, hstart, -, -⟩ := exists_names_join hne hname
  refine FileTree.isRelative_iff.mpr ⟨fun hempty => ?_, hstart ▸ hhead⟩
  rw [hempty] at hstart
  exact hne (String.toList_eq_nil_iff.mp (List.head?_eq_none_iff.mp hstart.symm))

/-- A file name is the last component of a path that ends with it. The empty path has no components,
so that the name stands alone there. -/
theorem components_join (p : FilePath) {name : String} (hname : IsFileName name) :
    (p.join name).components = p.components ++ [.name name] := by
  by_cases hp : p.text = ""
  · have hnames : (FilePath.mk name).names = [name] := by
      rw [names, Text.splitAtChar, splitAtEach_of_isFileName hname, List.map_singleton,
        String.ofList_toList]
    have hroot : name.toList.head? ≠ some '/' := fun h =>
      hname.2.2.2 (List.mem_of_mem_head? h)
    have hhere : [name].head? ≠ some "." := fun h => hname.2.1 (Option.some.inj h)
    have hempty : p.components = [] := by
      rw [show p = ⟨""⟩ from congrArg FilePath.mk hp]
      rfl
    rw [join, if_pos (.inr hp), components, if_neg hroot, hnames, if_neg hhere, hempty,
      List.filterMap_cons, componentOf?_of_isFileName hname]
    rfl
  · obtain ⟨front, hnames, hstart, hne, hfront⟩ := exists_names_join hp hname
    have hbody : (front ++ [name]).filterMap componentOf? =
        p.names.filterMap componentOf? ++ [.name name] := by
      rw [List.filterMap_append, List.filterMap_cons, componentOf?_of_isFileName hname,
        List.filterMap_nil]
      rcases hfront with h | h
      · rw [h]
      · rw [h, List.filterMap_append]
        simp [componentOf?]
    have hhead : (front ++ [name]).head? = p.names.head? := by
      rcases hfront with h | h <;> rw [h, List.head?_append_of_ne_nil _ hne]
      rw [List.head?_append_of_ne_nil _ hne]
    rw [components, components, hstart, hnames, hbody, hhead]
    split
    · rfl
    · split <;> rfl

end FilePath

namespace FileTree

variable {tree : FileTree}

/-! ## Following -/

/-- Names that follow each other lead on from where the first ones lead. -/
theorem follow_append (location : Location) (names more : List String) :
    tree.follow location (names ++ more) =
      (tree.follow location names).bind (tree.follow · more) := by
  induction names generalizing location with
  | nil => rfl
  | cons name names ih =>
    simp only [List.cons_append, follow]
    split
    · rfl
    · split
      · exact ih location
      · split
        · split
          · rfl
          · exact ih _
        · split
          · exact ih _
          · rfl

/-- Names that lead to a directory start at one, as a file has nothing inside it. -/
theorem hasDirectory_of_follow {location target : Location} {names : List String}
    (hfollow : tree.follow location names = some target) (htarget : tree.hasDirectory target) :
    tree.hasDirectory location := by
  cases names with
  | nil =>
    obtain rfl := Option.some.inj hfollow
    exact htarget
  | cons name names =>
    rw [follow] at hfollow
    split at hfollow
    · exact nomatch hfollow
    · rename_i hdirectory
      simpa using hdirectory

/-- A file name leads from a directory to its place, if something stands there. -/
theorem follow_singleton {location : Location} (hlocation : tree.hasDirectory location)
    {name : String} (hname : IsFileName name) :
    tree.follow location [name] =
      if (tree.node? (location ++ [name])).isSome then some (location ++ [name]) else none := by
  obtain ⟨hempty, hhere, hup, -⟩ := hname
  rw [follow, hlocation, Bool.not_true, if_neg Bool.false_ne_true,
    if_neg (not_or.mpr ⟨hempty, hhere⟩), if_neg hup]
  rfl

/-- A path that leads to a directory is relative, and its names do so with or without an empty one
at their end. -/
theorem follow_front_of_locate? {p : FilePath} {location : Location}
    (hp : tree.locate? p = some location) {front : List String}
    (hfront : p.names = front ∨ p.names = front ++ [""]) :
    tree.follow [] front = some location := by
  rw [locate?] at hp
  split at hp
  · rcases hfront with h | h
    · rwa [← h]
    · rw [h, follow_append] at hp
      obtain ⟨middle, hmiddle, hlast⟩ := Option.bind_eq_some_iff.mp hp
      rw [follow] at hlast
      split at hlast
      · exact nomatch hlast
      · rw [if_pos (.inl rfl)] at hlast
        rwa [← Option.some.inj hlast]
  · exact nomatch hp

/-- A path that leads somewhere starts at the working directory. -/
theorem isRelative_of_locate? {p : FilePath} {location : Location}
    (hp : tree.locate? p = some location) : isRelative p := by
  rw [locate?] at hp
  split at hp
  · assumption
  · exact nomatch hp

/-- The place of a file name at the end of a path to a directory. -/
theorem locate?_join {p : FilePath} {location : Location} (hp : tree.locate? p = some location)
    (hlocation : tree.hasDirectory location) {name : String} (hname : IsFileName name) :
    tree.locate? (p.join name) =
      if (tree.node? (location ++ [name])).isSome then some (location ++ [name]) else none := by
  have hrelative := isRelative_of_locate? hp
  obtain ⟨front, hnames, -, -, hfront⟩ :=
    FilePath.exists_names_join (isRelative_iff.mp hrelative).1 hname
  rw [locate?, if_pos (FilePath.isRelative_join hrelative hname), hnames, follow_append,
    follow_front_of_locate? hp hfront, Option.bind_some, follow_singleton hlocation hname]

/-- What a file name at the end of a path to a directory names. -/
theorem find?_join {p : FilePath} {location : Location} (hp : tree.locate? p = some location)
    (hlocation : tree.hasDirectory location) {name : String} (hname : IsFileName name) :
    tree.find? (p.join name) = tree.node? (location ++ [name]) := by
  rw [find?, locate?_join hp hlocation hname]
  cases hnode : tree.node? (location ++ [name]) with
  | none => rfl
  | some node => exact hnode

/-! ## Putting something at a new place -/

/-- What stands at a place after something is put at one. -/
theorem node?_set (tree : FileTree) {target : Location} (htarget : target ≠ []) (node : FileNode)
    (location : Location) :
    (tree.set target node).node? location =
      if location = target then some node else tree.node? location := by
  have hkept : ∀ nodes : List (Location × FileNode), location ≠ target →
      (nodes.filter (·.1 ≠ target)).lookup location = nodes.lookup location := by
    intro nodes hother
    induction nodes with
    | nil => rfl
    | cons first rest ih =>
      obtain ⟨place, held⟩ := first
      by_cases hplace : place = target
      · subst hplace
        rw [List.filter_cons_of_neg (by simp), ih, List.lookup_cons,
          beq_eq_false_iff_ne.mpr hother]
      · rw [List.filter_cons_of_pos (by simpa using hplace), List.lookup_cons, List.lookup_cons, ih]
  have hgone : (tree.nodes.filter (·.1 ≠ target)).lookup target = none := by
    rw [List.lookup_eq_none_iff]
    intro pair hpair
    have hne : pair.1 ≠ target := of_decide_eq_true (List.mem_filter.mp hpair).2
    exact bne_iff_ne.mpr (Ne.symm hne)
  rw [node?, node?]
  by_cases hempty : location = []
  · have hother : location ≠ target := fun h => htarget (h ▸ hempty)
    rw [if_pos hempty, if_pos hempty, if_neg hother]
  · rw [if_neg hempty, if_neg hempty, set, List.lookup_append]
    by_cases hother : location = target
    · subst hother
      rw [hgone, if_pos rfl]
      simp
    · rw [hkept _ hother, if_neg hother]
      simp [List.lookup_cons, beq_eq_false_iff_ne.mpr hother]

/-- A directory stays one if something is put at a place where there was nothing. -/
theorem hasDirectory_set {target : Location} (htarget : tree.node? target = none) (node : FileNode)
    {location : Location} (hlocation : tree.hasDirectory location) :
    (tree.set target node).hasDirectory location := by
  have hne : target ≠ [] := by
    rintro rfl
    exact nomatch htarget
  have hother : location ≠ target := by
    rintro rfl
    rw [hasDirectory, htarget] at hlocation
    exact nomatch hlocation
  rwa [hasDirectory, node?_set tree hne, if_neg hother]

/-- Names lead to the same place if something is put where there was nothing. -/
theorem follow_set {target : Location} (htarget : tree.node? target = none) (node : FileNode)
    {location found : Location} {names : List String}
    (hfollow : tree.follow location names = some found) :
    (tree.set target node).follow location names = some found := by
  have hne : target ≠ [] := by
    rintro rfl
    exact nomatch htarget
  induction names generalizing location with
  | nil => exact hfollow
  | cons name names ih =>
    rw [follow] at hfollow ⊢
    split at hfollow
    · exact nomatch hfollow
    · rename_i hdirectory
      rw [Bool.not_eq_true, Bool.not_eq_false'] at hdirectory
      rw [hasDirectory_set htarget node hdirectory, Bool.not_true, if_neg Bool.false_ne_true]
      split
      · rename_i hskip
        rw [if_pos hskip] at hfollow
        exact ih hfollow
      · rename_i hskip
        rw [if_neg hskip] at hfollow
        split
        · rename_i hup
          rw [if_pos hup] at hfollow
          split at hfollow
          · exact nomatch hfollow
          · rename_i hroot
            rw [if_neg hroot]
            exact ih hfollow
        · rename_i hup
          rw [if_neg hup] at hfollow
          split at hfollow
          · rename_i hnode
            have hother : location ++ [name] ≠ target := by
              rintro rfl
              rw [htarget] at hnode
              exact nomatch hnode
            rw [node?_set tree hne, if_neg hother, if_pos hnode]
            exact ih hfollow
          · exact nomatch hfollow

/-- A path leads to the same place if something is put where there was nothing. -/
theorem locate?_set {target : Location} (htarget : tree.node? target = none) (node : FileNode)
    {p : FilePath} {location : Location} (hp : tree.locate? p = some location) :
    (tree.set target node).locate? p = some location := by
  have hrelative := isRelative_of_locate? hp
  rw [locate?, if_pos hrelative] at hp ⊢
  exact follow_set htarget node hp

/-! ## Writing -/

/-- The directories on the way to a directory exist, so that making them changes nothing. -/
theorem makeDirectories_of_follow {location target : Location} {names : List String}
    (hfollow : tree.follow location names = some target) (htarget : tree.hasDirectory target) :
    tree.makeDirectories location (names.filterMap FilePath.componentOf?) =
      (tree, some target) := by
  induction names generalizing location with
  | nil =>
    obtain rfl := Option.some.inj hfollow
    rfl
  | cons name names ih =>
    rw [follow] at hfollow
    split at hfollow
    · exact nomatch hfollow
    · rw [List.filterMap_cons, FilePath.componentOf?]
      split at hfollow
      · rename_i hskip
        rw [if_pos hskip]
        exact ih hfollow
      · rename_i hskip
        rw [if_neg hskip]
        split at hfollow
        · rename_i hup
          rw [if_pos hup]
          split at hfollow
          · exact nomatch hfollow
          · rename_i hroot
            dsimp only
            rw [makeDirectories, if_neg hroot]
            exact ih hfollow
        · rename_i hup
          rw [if_neg hup]
          split at hfollow
          · have hnext := hasDirectory_of_follow hfollow htarget
            dsimp only
            rw [makeDirectories, beq_iff_eq.mp hnext]
            exact ih hfollow
          · exact nomatch hfollow

/-- A file is written into a directory under a name that no directory has. -/
theorem write_join {p : FilePath} {location : Location} (hp : tree.locate? p = some location)
    (hlocation : tree.hasDirectory location) {name : String} (hname : IsFileName name)
    (hfree : tree.hasDirectory (location ++ [name]) = false) (content : FileContent) :
    tree.write (p.join name) content = (tree.set (location ++ [name]) (.file content), true) := by
  have hrelative := isRelative_of_locate? hp
  obtain ⟨front, hnames, -, -, hfront⟩ :=
    FilePath.exists_names_join (isRelative_iff.mp hrelative).1 hname
  have hjoined := FilePath.isRelative_join hrelative hname
  have hfollow := follow_front_of_locate? hp hfront
  have hparent : (p.join name).parent? = some p.components := by
    rw [FilePath.parent?, FilePath.components_join p hname]
    simp
  have hmade : tree.makeDirectories [] p.components = (tree, some location) := by
    have hfull : tree.follow [] p.names = some location := by
      rwa [locate?, if_pos hrelative] at hp
    have hbody := makeDirectories_of_follow hfull hlocation
    rw [FilePath.components, if_neg (isRelative_iff.mp hrelative).2]
    split
    · exact hbody
    · exact hbody
  have hwritable : tree.writable? (p.join name) = some (location ++ [name]) := by
    obtain ⟨hempty, hhere, hup, -⟩ := hname
    rw [writable?, hnames]
    simp [hjoined, hempty, hhere, hup, hfollow, hlocation, hfree]
  rw [write, hparent, Option.getD_some, hmade]
  dsimp only
  rw [hwritable]

end FileTree

end Files

end ServiceDispatch
