import Mathlib.Data.Option.Basic
import ServiceDispatch.Proofs.Files.Writing

/-!
# What a write changes

Writing a file makes the directories above it and puts the file at one place. Whatever stood at
another place stays, and nothing but directories is new there, also if the write fails.
-/

namespace ServiceDispatch

namespace Files.FileTree

/-- The content of the file at a place. -/
def contentAt? (tree : FileTree) (location : Location) : Option FileContent :=
  match tree.node? location with
  | some (.file content) => some content
  | _ => none

/-- Whether a place holds what it held before, or a directory where there was nothing. -/
def KeepsAt (tree after : FileTree) (location : Location) : Prop :=
  after.node? location = tree.node? location ∨
    tree.node? location = none ∧ after.node? location = some .directory

/-- Whether every place holds what it held before, or a directory where there was nothing. -/
def OnlyAddsDirectories (tree after : FileTree) : Prop := ∀ location, tree.KeepsAt after location

variable {tree after : FileTree} {location target : Location} {content : FileContent}

/-- A place that keeps what it held keeps the content of its file. -/
theorem KeepsAt.contentAt?_eq (hkeeps : tree.KeepsAt after location) :
    after.contentAt? location = tree.contentAt? location := by
  rcases hkeeps with hsame | ⟨hbefore, hafter⟩
  · simp [contentAt?, hsame]
  · simp [contentAt?, hbefore, hafter]

/-- What keeps places after something that keeps them keeps them. -/
theorem OnlyAddsDirectories.trans {next : FileTree} (hfirst : tree.OnlyAddsDirectories after)
    (hsecond : after.OnlyAddsDirectories next) : tree.OnlyAddsDirectories next := by
  intro location
  rcases hsecond location with hsame | ⟨hnothing, hnew⟩
  · have hkeeps := hfirst location
    rwa [KeepsAt, ← hsame] at hkeeps
  · have hbefore : tree.node? location = none := by
      rcases hfirst location with hsame | ⟨hbefore, -⟩
      · rw [← hsame, hnothing]
      · exact hbefore
    exact .inr ⟨hbefore, hnew⟩

/-- A new directory where there was nothing changes nothing else. -/
theorem onlyAddsDirectories_set (htarget : tree.node? target = none) :
    tree.OnlyAddsDirectories (tree.set target .directory) := by
  have hne : target ≠ [] := by
    rintro rfl
    simp [node?] at htarget
  intro location
  rw [KeepsAt, node?_set tree hne]
  by_cases hlocation : location = target
  · subst hlocation
    simp [htarget]
  · simp [hlocation]

/-- Making the directories of a path adds directories where there was nothing. -/
theorem onlyAddsDirectories_makeDirectories (tree : FileTree) (base : Location)
    (components : List Component) :
    tree.OnlyAddsDirectories (tree.makeDirectories base components).1 := by
  have hsame (tree : FileTree) : tree.OnlyAddsDirectories tree := fun _ => .inl rfl
  fun_induction makeDirectories tree base components with
  | case1 tree base => exact hsame tree
  | case2 tree base rest ih => exact ih
  | case3 tree base rest => exact hsame tree
  | case4 tree rest => exact hsame tree
  | case5 tree base rest hbase ih => exact ih
  | case6 tree base name rest next hnext ih => exact ih
  | case7 tree base name rest next held hnext => exact hsame tree
  | case8 tree base name rest next hnext ih => exact (onlyAddsDirectories_set hnext).trans ih

/-! ## The written file -/

/-- Directories stay where they are if something is put where there is none. -/
theorem hasDirectory_set_of_not (htarget : tree.hasDirectory target = false) (node : FileNode)
    (hlocation : tree.hasDirectory location) : (tree.set target node).hasDirectory location := by
  have hne : target ≠ [] := by
    rintro rfl
    simp [hasDirectory, node?] at htarget
  have hother : location ≠ target := by
    rintro rfl
    simp [hlocation] at htarget
  rwa [hasDirectory, node?_set tree hne, if_neg hother]

/-- Names that lead to a directory still do if something is put where there is none: they go
through directories only. -/
theorem follow_set_of_not (htarget : tree.hasDirectory target = false) (node : FileNode)
    {found : Location} (hfound : tree.hasDirectory found) {names : List String}
    (hfollow : tree.follow location names = some found) :
    (tree.set target node).follow location names = some found := by
  induction names generalizing location with
  | nil => exact hfollow
  | cons name names ih =>
    have hhere := hasDirectory_of_follow hfollow hfound
    have hthere := hasDirectory_set_of_not htarget node hhere
    simp only [follow, hhere, Bool.not_true, Bool.false_eq_true, if_false] at hfollow
    simp only [follow, hthere, Bool.not_true, Bool.false_eq_true, if_false]
    by_cases hskip : name = "" ∨ name = "."
    · rw [if_pos hskip] at hfollow ⊢
      exact ih hfollow
    · rw [if_neg hskip] at hfollow ⊢
      by_cases hup : name = ".."
      · rw [if_pos hup] at hfollow ⊢
        by_cases hroot : location = []
        · simp [hroot] at hfollow
        · rw [if_neg hroot] at hfollow ⊢
          exact ih hfollow
      · rw [if_neg hup] at hfollow ⊢
        by_cases hnode : (tree.node? (location ++ [name])).isSome
        · rw [if_pos hnode] at hfollow
          have hnext := hasDirectory_set_of_not htarget node (hasDirectory_of_follow hfollow hfound)
          rw [hasDirectory, beq_iff_eq] at hnext
          rw [hnext, Option.isSome_some, if_pos rfl]
          exact ih hfollow
        · rw [if_neg hnode] at hfollow
          cases hfollow

/-- A file at the place that may be written at a path is found under this path. -/
theorem locate?_set_of_writable? {path : FilePath}
    (hwritable : tree.writable? path = some location) (content : FileContent) :
    location ≠ [] ∧ (tree.set location (.file content)).locate? path = some location := by
  simp only [writable?, bind, Option.bind_eq_some_iff, Option.guard_eq_some'] at hwritable
  obtain ⟨-, hrelative, name, hname, -, ⟨hempty, hhere, hup⟩, directory, hfollow, -, hdirectory,
    hplace⟩ := hwritable
  have hfree : tree.hasDirectory (directory ++ [name]) = false := by
    by_contra hthere
    simp [hthere] at hplace
  obtain rfl : directory ++ [name] = location := by simpa [hfree] using hplace
  have hne : directory ++ [name] ≠ [] := by simp
  have hnames : path.names = path.names.dropLast ++ [name] := by
    obtain ⟨front, hfront⟩ := List.getLast?_eq_some_iff.mp hname
    simp [hfront]
  have hlast : (tree.set (directory ++ [name]) (.file content)).follow directory [name] =
      some (directory ++ [name]) := by
    have hthere := hasDirectory_set_of_not hfree (.file content) hdirectory
    simp [follow, hthere, hempty, hhere, hup, node?_set tree hne]
  refine ⟨hne, ?_⟩
  rw [locate?, if_pos hrelative, hnames, follow_append,
    follow_set_of_not hfree (.file content) hdirectory hfollow]
  exact hlast

/-- A write that succeeds puts the file at the place of its path. Every other place keeps what it
held, or has a new directory. -/
theorem write_eq_true {path : FilePath} (hwrite : tree.write path content = (after, true)) :
    ∃ location, after.locate? path = some location ∧ after.node? location = some (.file content) ∧
      ∀ other, other ≠ location → tree.KeepsAt after other := by
  have hmade := onlyAddsDirectories_makeDirectories tree [] (path.parent?.getD [])
  rw [write] at hwrite
  split at hwrite
  · simp at hwrite
  · rename_i made base hmakes
    rw [hmakes] at hmade
    split at hwrite
    · rename_i location hwritable
      obtain ⟨hafter, -⟩ := Prod.mk.inj hwrite
      obtain ⟨hne, hlocate⟩ := locate?_set_of_writable? hwritable content
      subst hafter
      refine ⟨location, hlocate, by simp [node?_set made hne], fun other hother => ?_⟩
      have hsame : (made.set location (.file content)).node? other = made.node? other := by
        simp [node?_set made hne, hother]
      rw [KeepsAt, hsame]
      exact hmade other
    · simp at hwrite

/-- A write that fails adds directories at most, and changes the content of no file. -/
theorem write_eq_false {path : FilePath} (hwrite : tree.write path content = (after, false)) :
    tree.OnlyAddsDirectories after := by
  have hmade := onlyAddsDirectories_makeDirectories tree [] (path.parent?.getD [])
  rw [write] at hwrite
  split at hwrite
  · rename_i made hmakes
    obtain ⟨rfl, -⟩ := Prod.mk.inj hwrite
    rwa [hmakes] at hmade
  · rename_i made base hmakes
    rw [hmakes] at hmade
    split at hwrite
    · simp at hwrite
    · obtain ⟨rfl, -⟩ := Prod.mk.inj hwrite
      exact hmade

end Files.FileTree

end ServiceDispatch
