import Mathlib.Data.Option.Basic
import ServiceDispatch.CrateScan
import ServiceDispatch.Proofs.Results
import ServiceDispatch.Proofs.Soundness.CratePath

/-!
# Modules of files

Every file that is scanned holds a module of the crate, whose names are identifiers. The sources of
a crate stand in such modules only.
-/

namespace ServiceDispatch

namespace Files

/-- An identifier has no characters but underscores, letters and numbers. At its beginning no number
may stand, but every letter counts among letters and numbers. -/
theorem not_mem_of_isIdentifier {name : String} (hname : isIdentifier name) {c : Char}
    (hc : (c == '_' || Text.isAlphanumeric c) = false) : c ∉ name.toList := by
  rw [isIdentifier] at hname
  split at hname
  · exact nomatch hname
  · rename_i first rest hchars
    obtain ⟨hfirst, hrest⟩ := Bool.and_eq_true_iff.mp hname
    rw [hchars, List.mem_cons]
    rintro (rfl | hmem)
    · simp_all [Text.isAlphanumeric]
    · exact absurd (List.all_eq_true.mp hrest c hmem) (by simp [hc])

/-- An identifier can be one segment of a path: it is not empty and has no colon. -/
theorem isSegment_of_isIdentifier {name : String} (hname : isIdentifier name) : IsSegment name := by
  refine ⟨?_, not_mem_of_isIdentifier hname (by decide)⟩
  rintro rfl
  exact nomatch hname

/-- The module of a file is made of identifiers: the directories on the way, and the stem of the
file. -/
theorem exists_names_of_modulePath? {src file : FilePath} {module : ItemPath}
    (hmodule : modulePath? src file = some module) :
    ∃ names : List String, (∀ name ∈ names, isIdentifier name) ∧ module = .ofNames names := by
  simp only [modulePath?, bind, Option.bind_eq_some_iff, Option.guard_eq_some'] at hmodule
  obtain ⟨parts, -, last, -, stem, -, -, -, -, hnames, hmodule⟩ := hmodule
  exact ⟨_, List.all_eq_true.mp hnames, (Option.some.inj hmodule).symm⟩

/-- The module of a file is in the crate, as its path begins at the root. -/
theorem inCrate_of_modulePath? {src file : FilePath} {module : ItemPath}
    (hmodule : modulePath? src file = some module) : module.InCrate := by
  obtain ⟨names, hnames, rfl⟩ := exists_names_of_modulePath? hmodule
  exact ⟨names, fun name hname => isSegment_of_isIdentifier (hnames name hname), rfl⟩

end Files

namespace Source

open Files (FilePath FileTree FileNode)

/-- The sources of a crate are read from its files. -/
theorem mapM_of_ofCrate {tree : FileTree} {directory : FilePath} {sources : List Source}
    (hsources : ofCrate tree directory = .ok sources) :
    (filesOf tree directory).mapM (fun (module, path, node) => ofFile module path node) =
      .ok sources := by
  rw [ofCrate] at hsources
  split at hsources
  · exact hsources
  · exact nomatch hsources

/-- A source stands in the module of its file, whatever the file declares. -/
theorem module_of_ofFile {module : ItemPath} {path : FilePath} {node : FileNode} {source : Source}
    (hread : ofFile module path node = .ok source) : source.module = module := by
  unfold ofFile at hread
  split at hread
  · split at hread
    · rename_i found htext
      obtain rfl := Except.ok.inj hread
      obtain ⟨items, -, rfl⟩ := Option.map_eq_some_iff.mp htext
      rfl
    · exact nomatch hread
  · exact nomatch hread

/-- Every source of a crate is in the module of one of its files. -/
theorem exists_modulePath?_of_mem {tree : FileTree} {directory : FilePath} {sources : List Source}
    (hsources : ofCrate tree directory = .ok sources) {source : Source}
    (hsource : source ∈ sources) :
    ∃ file, Files.modulePath? directory file = some source.module := by
  obtain ⟨⟨module, file, node⟩, hmem, hread⟩ :=
    Results.exists_mem_of_mapM_eq_ok (mapM_of_ofCrate hsources) hsource
  obtain ⟨⟨path, node'⟩, -, hfile⟩ := List.mem_filterMap.mp hmem
  refine ⟨path, ?_⟩
  rw [module_of_ofFile hread]
  dsimp only at hfile
  split at hfile
  · exact nomatch hfile
  · split at hfile
    · exact nomatch hfile
    · obtain ⟨module', hmodule, heq⟩ := Option.map_eq_some_iff.mp hfile
      rwa [← (Prod.mk.inj heq).1]

/-- Every source of a crate is in the crate, since its module is the one of a file. -/
theorem inCrate_of_ofCrate {tree : FileTree} {directory : FilePath} {sources : List Source}
    (hsources : ofCrate tree directory = .ok sources) :
    ∀ source ∈ sources, source.module.InCrate := by
  intro source hsource
  obtain ⟨file, hmodule⟩ := exists_modulePath?_of_mem hsources hsource
  exact Files.inCrate_of_modulePath? hmodule

end Source

end ServiceDispatch
