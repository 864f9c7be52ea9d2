import ServiceDispatch.Proofs.Files.ModulePaths
import ServiceDispatch.Proofs.Files.Writing
import ServiceDispatch.Proofs.Resolution.Anchors

/-!
# Places of modules

The module of a file is determined by the place of the file below the source directory. Two places
hold the same module only if one is a file beside a directory and the other one the `mod.rs` in it,
or if both stand for the source directory itself.
-/

namespace ServiceDispatch

namespace ItemPath

/-- A path of the crate is its names between separators. -/
theorem text_ofNames (names : List String) :
    (ofNames names).text = "::".intercalate ("crate" :: names) := by
  have hrooted : "::".toList ++ ("::".intercalate ("crate" :: names)).toList =
      "::".toList ++ ("crate".toList ++ names.flatMap fun name => ':' :: ':' :: name.toList) := by
    rw [← String.toList_append]
    exact toList_external (List.cons_ne_nil "crate" names)
  rw [← String.toList_inj, toList_ofNames, List.append_cancel_left hrooted]

end ItemPath

namespace Files

/-! ## Places below a directory -/

namespace FilePath

/-- Names below a path are its further components, if they can name files. -/
theorem components_foldl_join (p : FilePath) {names : List String}
    (hnames : ∀ name ∈ names, IsFileName name) :
    (names.foldl join p).components = p.components ++ names.map .name := by
  induction names generalizing p with
  | nil => exact (List.append_nil _).symm
  | cons name names ih =>
    obtain ⟨hname, hrest⟩ := List.forall_mem_cons.mp hnames
    rw [List.foldl_cons, ih _ hrest, components_join p hname, List.append_assoc]
    rfl

/-- The names below a path are found behind it, if they can name files. -/
theorem relativeTo?_foldl_join (p : FilePath) {names : List String}
    (hnames : ∀ name ∈ names, IsFileName name) :
    (names.foldl join p).relativeTo? p = some (names.map .name) := by
  rw [relativeTo?, components_foldl_join p hnames, if_pos, List.drop_left]
  exact List.isPrefixOf_iff_prefix.mpr (List.prefix_append _ _)

end FilePath

/-- A component whose text is no special one is a name. -/
theorem Component.eq_name {component : Component} (htext : component.text ∉ ["/", ".", ".."]) :
    component = .name component.text := by
  cases component with
  | name text => rfl
  | _ => exact absurd (by decide) htext

/-- An identifier can name a file or a directory, as it is no dot and has no slash. -/
theorem isFileName_of_isIdentifier {name : String} (hname : isIdentifier name) :
    IsFileName name := by
  have hspecial : ∀ other ∈ ["", ".", ".."], ¬ isIdentifier other := by decide
  have hne : ∀ other ∈ ["", ".", ".."], name ≠ other := by
    rintro other hother rfl
    exact hspecial _ hother hname
  exact ⟨hne _ (by decide), hne _ (by decide), hne _ (by decide),
    not_mem_of_isIdentifier hname (by decide)⟩

/-! ## Source files -/

/-- A stem is what stands before the ending of a source file. -/
theorem stem?_eq_some_iff {name stem : String} : stem? name = some stem ↔ name = stem ++ ".rs" := by
  rw [stem?]
  constructor
  · intro hstem
    split at hstem
    · rename_i hsuffix
      obtain ⟨front, hfront⟩ := List.isSuffixOf_iff_suffix.mp hsuffix
      have htake : name.toList.take (name.toList.length - 3) = front := by
        rw [← hfront]
        simp
      rw [htake] at hstem
      rw [← String.toList_inj, ← hfront, ← Option.some.inj hstem, String.toList_append]
      simp
    · exact nomatch hstem
  · rintro rfl
    have hsuffix : ".rs".toList <:+ (stem ++ ".rs").toList := by
      rw [String.toList_append]
      exact List.suffix_append _ _
    have htake : (stem ++ ".rs").toList.take ((stem ++ ".rs").toList.length - 3) = stem.toList := by
      simp
    rw [if_pos (List.isSuffixOf_iff_suffix.mpr hsuffix), htake, String.ofList_toList]

/-- The name of a source file is none of the special components. -/
theorem sourceFile_not_mem_special (stem : String) : stem ++ ".rs" ∉ ["/", ".", ".."] := by
  have hlength : 3 ≤ (stem ++ ".rs").toList.length := by simp
  intro hmem
  have hall : ∀ text ∈ ["/", ".", ".."], text.toList.length < 3 := by decide
  have := hall _ hmem
  omega

/-- The name of a source file whose stem is an identifier can name a file. -/
theorem isFileName_sourceFile {stem : String} (hstem : isIdentifier stem) :
    IsFileName (stem ++ ".rs") := by
  have hspecial := sourceFile_not_mem_special stem
  simp only [List.mem_cons, List.not_mem_nil, or_false, not_or] at hspecial
  refine ⟨?_, hspecial.2.1, hspecial.2.2, ?_⟩
  · intro hempty
    simpa using congrArg String.toList hempty
  · rw [String.toList_append, List.mem_append]
    exact not_or.mpr ⟨(isFileName_of_isIdentifier hstem).2.2.2, by decide⟩

/-- The directories of a file are among the names of its module. -/
theorem subset_moduleNames (directories : List String) (stem : String) :
    directories ⊆ moduleNames directories stem := by
  rw [moduleNames]
  split
  · exact List.Subset.refl _
  · exact List.subset_append_left _ _

/-- A file holds a module if it is a source file, not below `bin`, and the names of its place that
count are identifiers. -/
theorem modulePath?_eq_some_iff {src file : FilePath} {module : ItemPath} :
    modulePath? src file = some module ↔ ∃ directories stem,
      file.relativeTo? src = some ((directories ++ [stem ++ ".rs"]).map .name) ∧
      directories.head? ≠ some "bin" ∧ (∀ name ∈ moduleNames directories stem, isIdentifier name) ∧
      module = .ofNames (moduleNames directories stem) := by
  simp only [modulePath?, bind, Option.bind_eq_some_iff, Option.guard_eq_some', List.all_eq_true]
  constructor
  · rintro ⟨components, hcomponents, last, hlast, stem, hstem, -, hbin, -, hnames, hmodule⟩
    obtain rfl := stem?_eq_some_iff.mp hstem
    obtain ⟨directories, hparts⟩ := List.getLast?_eq_some_iff.mp hlast
    rw [hparts, List.dropLast_concat] at hbin hnames hmodule
    refine ⟨directories, stem, ?_, hbin, hnames, (Option.some.inj hmodule).symm⟩
    have hname : ∀ component ∈ components, component = .name component.text := by
      intro component hcomponent
      refine Component.eq_name ?_
      have hpart : component.text ∈ directories ++ [stem ++ ".rs"] :=
        hparts ▸ List.mem_map_of_mem hcomponent
      rcases List.mem_append.mp hpart with hdirectory | hfile
      · intro hspecial
        have hall : ∀ text ∈ ["/", ".", ".."], ¬ isIdentifier text := by decide
        exact hall _ hspecial (hnames _ (subset_moduleNames _ _ hdirectory))
      · rw [List.mem_singleton.mp hfile]
        exact sourceFile_not_mem_special stem
    rw [hcomponents, ← hparts, List.map_map]
    exact congrArg some ((List.map_id components).symm.trans (List.map_congr_left hname))
  · rintro ⟨directories, stem, hplace, hbin, hnames, rfl⟩
    have hparts : ((directories ++ [stem ++ ".rs"]).map Component.name).map Component.text =
        directories ++ [stem ++ ".rs"] := by
      rw [List.map_map]
      exact List.map_id _
    refine ⟨_, hplace, stem ++ ".rs", ?_, stem, stem?_eq_some_iff.mpr rfl, (), ?_⟩
    · rw [hparts, List.getLast?_concat]
    · rw [hparts, List.dropLast_concat]
      exact ⟨hbin, (), hnames, rfl⟩

/-! ## Places with the same module -/

/-- Names of modules collide only where one stem stands for the directory that the other file is
beside, or where both stand for the source directory. -/
theorem moduleNames_eq_moduleNames {directories others : List String} {stem other : String}
    (heq : moduleNames directories stem = moduleNames others other) :
    (directories = others ∧ stem = other) ∨ (others = directories ++ [stem] ∧ other = "mod") ∨
      (directories = others ++ [other] ∧ stem = "mod") ∨
      (directories = [] ∧ stem ∈ ["lib", "main", "mod"] ∧
        others = [] ∧ other ∈ ["lib", "main", "mod"]) := by
  have htop {stem : String} (hstem : stem = "lib" ∨ stem = "main") :
      stem ∈ ["lib", "main", "mod"] := by
    rcases hstem with rfl | rfl <;> decide
  unfold moduleNames at heq
  split at heq
  · rename_i hstem
    split at heq
    · rename_i hother
      subst heq
      rcases hstem with rfl | ⟨hempty, hstem⟩
      · rcases hother with rfl | ⟨hempty, hother⟩
        · exact .inl ⟨rfl, rfl⟩
        · exact .inr (.inr (.inr ⟨hempty, by decide, hempty, htop hother⟩))
      · rcases hother with rfl | ⟨-, hother⟩
        · exact .inr (.inr (.inr ⟨hempty, htop hstem, hempty, by decide⟩))
        · exact .inr (.inr (.inr ⟨hempty, htop hstem, hempty, htop hother⟩))
    · have hne : directories ≠ [] := by simp [heq]
      exact .inr (.inr (.inl ⟨heq, hstem.resolve_right fun h => hne h.1⟩))
  · split at heq
    · rename_i hother
      have hne : others ≠ [] := by simp [← heq]
      exact .inr (.inl ⟨heq.symm, hother.resolve_right fun h => hne h.1⟩)
    · obtain ⟨hdirectories, hstem⟩ := List.append_inj' heq rfl
      exact .inl ⟨hdirectories, (List.cons.inj hstem).1⟩

/-- Whether two places are those of a file beside a directory and of the `mod.rs` in it. -/
def AreBeside (place other : List Component) : Prop :=
  ∃ directories stem, place = (directories ++ [stem ++ ".rs"]).map .name ∧
    other = (directories ++ [stem, "mod.rs"]).map .name

/-- Whether a place is one of those that stand for the source directory. -/
def IsTopPlace (place : List Component) : Prop :=
  ∃ name ∈ ["lib.rs", "main.rs", "mod.rs"], place = [.name name]

/-- A stem that stands for the source directory is that of a top place. -/
theorem isTopPlace_sourceFile {stem : String} (hstem : stem ∈ ["lib", "main", "mod"]) :
    IsTopPlace (([] ++ [stem ++ ".rs"]).map .name) := by
  refine ⟨stem ++ ".rs", ?_, rfl⟩
  have hall : ∀ stem ∈ ["lib", "main", "mod"],
      stem ++ ".rs" ∈ ["lib.rs", "main.rs", "mod.rs"] := by decide
  exact hall stem hstem

/-- Two files with the same module have the same place below the source directory, or places beside
each other, or both are at the top. -/
theorem places_of_modulePath?_eq {src file other : FilePath} {module : ItemPath}
    (hfile : modulePath? src file = some module) (hother : modulePath? src other = some module) :
    ∃ place place', file.relativeTo? src = some place ∧ other.relativeTo? src = some place' ∧
      (place = place' ∨ AreBeside place place' ∨ AreBeside place' place ∨
        (IsTopPlace place ∧ IsTopPlace place')) := by
  obtain ⟨directories, stem, hplace, -, hnames, rfl⟩ := modulePath?_eq_some_iff.mp hfile
  obtain ⟨directories', stem', hplace', -, hnames', heq⟩ := modulePath?_eq_some_iff.mp hother
  refine ⟨_, _, hplace, hplace', ?_⟩
  have hsegments : ∀ name ∈ moduleNames directories stem, IsSegment name :=
    fun name hname => isSegment_of_isIdentifier (hnames name hname)
  have hsegments' : ∀ name ∈ moduleNames directories' stem', IsSegment name :=
    fun name hname => isSegment_of_isIdentifier (hnames' name hname)
  rcases moduleNames_eq_moduleNames ((ItemPath.ofNames_inj hsegments hsegments').mp heq) with
    ⟨rfl, rfl⟩ | ⟨rfl, rfl⟩ | ⟨rfl, rfl⟩ | ⟨rfl, hstem, rfl, hstem'⟩
  · exact .inl rfl
  · exact .inr (.inl ⟨directories, stem, rfl, by simp⟩)
  · exact .inr (.inr (.inl ⟨directories', stem', rfl, by simp⟩))
  · exact .inr (.inr (.inr ⟨isTopPlace_sourceFile hstem, isTopPlace_sourceFile hstem'⟩))

/-! ## Files of given names -/

variable {directories : List String} {name : String}

/-- The `mod.rs` below directories holds the module of their names. -/
theorem modulePath?_modFile (src : FilePath) {names : List String}
    (hnames : ∀ name ∈ names, isIdentifier name) (hbin : names.head? ≠ some "bin") :
    modulePath? src ((names ++ ["mod.rs"]).foldl FilePath.join src) = some (.ofNames names) := by
  have hplace : ∀ name ∈ names ++ ["mod.rs"], IsFileName name :=
    List.forall_mem_append.mpr
      ⟨fun name hname => isFileName_of_isIdentifier (hnames name hname), by decide⟩
  have hmod : moduleNames names "mod" = names := if_pos (.inl rfl)
  refine modulePath?_eq_some_iff.mpr
    ⟨names, "mod", FilePath.relativeTo?_foldl_join src hplace, hbin, ?_, ?_⟩
  · rwa [hmod]
  · rw [hmod]

/-- The file of a name below directories holds the module of its names, unless its stem stands for
the directories. -/
theorem modulePath?_sourceFile (src : FilePath)
    (hnames : ∀ other ∈ directories ++ [name], isIdentifier other)
    (hbin : directories.head? ≠ some "bin") :
    modulePath? src ((directories ++ [name ++ ".rs"]).foldl FilePath.join src) =
      some (.ofNames (moduleNames directories name)) := by
  obtain ⟨hdirectories, hname⟩ := List.forall_mem_append.mp hnames
  have hplace : ∀ other ∈ directories ++ [name ++ ".rs"], IsFileName other := by
    refine List.forall_mem_append.mpr
      ⟨fun other hother => isFileName_of_isIdentifier (hdirectories other hother), ?_⟩
    rw [List.forall_mem_singleton]
    exact isFileName_sourceFile (hname name (List.mem_singleton.mpr rfl))
  refine modulePath?_eq_some_iff.mpr
    ⟨directories, name, FilePath.relativeTo?_foldl_join src hplace, hbin, ?_, rfl⟩
  intro other hother
  rw [moduleNames] at hother
  split at hother
  · exact hdirectories other hother
  · exact hnames other hother

/-- A stem is a name of the module of its file unless it stands for the directories. -/
theorem moduleNames_eq_append_iff :
    moduleNames directories name = directories ++ [name] ↔
      name ≠ "mod" ∧ ¬ (directories = [] ∧ (name = "lib" ∨ name = "main")) := by
  rw [moduleNames, ← not_or]
  split
  · rename_i hstands
    simp [hstands]
  · rename_i hstands
    simp [hstands]

/-- Files hold different modules unless one is the `mod.rs` of the directory that the other one is
beside, or both stand for the source directory. For each path of identifiers that does not begin
with `bin` there is a directory whose `mod.rs` holds it, and the file beside this directory holds it
too, exactly if its stem does not stand for the directory around it. -/
theorem modulePath?_separates (src : FilePath) :
    (∀ file other module, modulePath? src file = some module →
      modulePath? src other = some module →
      ∃ place place', file.relativeTo? src = some place ∧ other.relativeTo? src = some place' ∧
        (place = place' ∨ AreBeside place place' ∨ AreBeside place' place ∨
          (IsTopPlace place ∧ IsTopPlace place'))) ∧
    ∀ directories name, (∀ other ∈ directories ++ [name], isIdentifier other) →
      (directories ++ [name]).head? ≠ some "bin" →
      modulePath? src ((directories ++ [name, "mod.rs"]).foldl FilePath.join src) =
          some ⟨"::".intercalate ("crate" :: (directories ++ [name]))⟩ ∧
        (modulePath? src ((directories ++ [name ++ ".rs"]).foldl FilePath.join src) =
            some ⟨"::".intercalate ("crate" :: (directories ++ [name]))⟩ ↔
          name ≠ "mod" ∧ ¬ (directories = [] ∧ (name = "lib" ∨ name = "main"))) := by
  refine ⟨fun file other module => places_of_modulePath?_eq, ?_⟩
  intro directories name hnames hbin
  have hsegments : ∀ other ∈ directories ++ [name], IsSegment other :=
    fun other hother => isSegment_of_isIdentifier (hnames other hother)
  have hfront : directories.head? ≠ some "bin" := by
    intro hfront
    rw [List.head?_append, hfront] at hbin
    exact hbin rfl
  have hsplit : directories ++ [name, "mod.rs"] = directories ++ [name] ++ ["mod.rs"] := by simp
  rw [← ItemPath.text_ofNames]
  refine ⟨?_, ?_⟩
  · rw [hsplit]
    exact modulePath?_modFile src hnames hbin
  · rw [modulePath?_sourceFile src hnames hfront, Option.some.injEq]
    refine Iff.trans (ItemPath.ofNames_inj ?_ hsegments) moduleNames_eq_append_iff
    intro other hother
    rw [moduleNames] at hother
    split at hother
    · exact hsegments other (List.mem_append_left _ hother)
    · exact hsegments other hother

/-- The file of a module and the `mod.rs` in its directory are beside each other, and a file
`lib.rs` that is not at the top is like any other one. -/
theorem modulePath?_separates_services :
    let file := FilePath.mk "src/hos/services.rs"
    let other := FilePath.mk "src/hos/services/mod.rs"
    modulePath? ⟨"src"⟩ file = some ⟨"crate::hos::services"⟩ ∧
      modulePath? ⟨"src"⟩ other = some ⟨"crate::hos::services"⟩ ∧
      (∃ place place', file.relativeTo? ⟨"src"⟩ = some place ∧
        other.relativeTo? ⟨"src"⟩ = some place' ∧
        (place = place' ∨ AreBeside place place' ∨ AreBeside place' place ∨
          (IsTopPlace place ∧ IsTopPlace place'))) ∧
      (∀ name ∈ ["hos", "lib"], isIdentifier name) ∧
      modulePath? ⟨"src"⟩ ((["hos"] ++ ["lib" ++ ".rs"]).foldl FilePath.join ⟨"src"⟩) =
        some ⟨"crate::hos::lib"⟩ := by
  intro file other
  have hfile : modulePath? ⟨"src"⟩ file = some ⟨"crate::hos::services"⟩ := by decide
  have hother : modulePath? ⟨"src"⟩ other = some ⟨"crate::hos::services"⟩ := by decide
  have hnames : ∀ name ∈ ["hos", "lib"], isIdentifier name := by decide
  obtain ⟨hplaces, hholds⟩ := modulePath?_separates ⟨"src"⟩
  refine ⟨hfile, hother, hplaces file other _ hfile hother, hnames, ?_⟩
  exact (hholds ["hos"] "lib" hnames (by decide)).2.mpr (by decide)

end Files

end ServiceDispatch
