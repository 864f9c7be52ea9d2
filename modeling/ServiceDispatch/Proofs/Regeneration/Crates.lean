import ServiceDispatch.Proofs.Files.Places
import ServiceDispatch.Proofs.Files.Walking
import ServiceDispatch.Proofs.Regeneration.Feeds

/-!
# Crates with the generated file

The generated file is written into the source directory, where it holds a module of its own at the
root of the crate. A scan then finds one more source, and all others as before.
-/

namespace ServiceDispatch

open Files (FilePath FileTree FileNode IsFileName Location)

/-- The name of the module that the generated file holds. -/
def generatedName : String := "ipc_dispatch"

/-- The name of the generated file. -/
def generatedFile : String := "ipc_dispatch.rs"

/-- The module that the generated file holds. -/
def generatedModule : ItemPath := ItemPath.root.join generatedName

namespace Files

/-- The last component of a path with a file name at its end is the name. -/
theorem FilePath.fileName?_join (p : FilePath) {name : String} (hname : IsFileName name) :
    (p.join name).fileName? = some name := by
  rw [FilePath.fileName?, FilePath.components_join p hname, List.getLast?_concat]

/-- The generated file holds its module, which stands at the root of the crate. -/
theorem modulePath?_generatedFile (directory : FilePath) :
    modulePath? directory (directory.join generatedFile) = some generatedModule := by
  have hfile : generatedFile = generatedName ++ ".rs" := by decide
  have hnames : ∀ name ∈ [] ++ [generatedName], isIdentifier name := by decide
  have hheld := modulePath?_sourceFile directory hnames nofun
  rwa [moduleNames_eq_append_iff.mpr (by decide), ← hfile] at hheld

end Files

namespace Source

variable {tree : FileTree} {directory : FilePath} {location : Location}

/-- What a scan makes of one stop of a walk. -/
def fileOf? (directory : FilePath) (hasLibrary : Bool) (stop : FilePath × FileNode) :
    Option (ItemPath × FilePath × FileNode) :=
  if stop.1.extension? ≠ some "rs" then none
  else if hasLibrary && stop.1.components == (directory.join "main.rs").components then none
  else (Files.modulePath? directory stop.1).map fun module => (module, stop.1, stop.2)

/-- The generated file is a file of the crate, whether or not the crate is a library. -/
theorem fileOf?_generatedFile (directory : FilePath) (hasLibrary : Bool) (node : FileNode) :
    fileOf? directory hasLibrary (directory.join generatedFile, node) =
      some (generatedModule, directory.join generatedFile, node) := by
  have hextension : (directory.join generatedFile).extension? = some "rs" := by
    rw [FilePath.extension?, FilePath.fileName?_join directory (by decide)]
    decide
  have hmain : (directory.join generatedFile).components ≠
      (directory.join "main.rs").components := by
    rw [FilePath.components_join directory (by decide),
      FilePath.components_join directory (by decide)]
    intro heq
    exact absurd (List.append_cancel_left heq) (by decide)
  rw [fileOf?, if_neg (not_not.mpr hextension), beq_eq_false_iff_ne.mpr hmain, Bool.and_false,
    if_neg Bool.false_ne_true, Files.modulePath?_generatedFile directory]
  rfl

/-- The files of a crate are what its scan makes of a walk. -/
theorem filesOf_eq (tree : FileTree) (directory : FilePath) : filesOf tree directory =
    (tree.walk directory).filterMap
      (fileOf? directory (tree.isFile (directory.join "lib.rs"))) :=
  rfl

/-- A library stays one, and no other file becomes one. -/
theorem isFile_lib_set (hdirectory : tree.locate? directory = some location)
    (hlocation : tree.hasDirectory location)
    (hfree : tree.node? (location ++ [generatedFile]) = none) (node : FileNode) :
    (tree.set (location ++ [generatedFile]) node).isFile (directory.join "lib.rs") =
      tree.isFile (directory.join "lib.rs") := by
  have hother : location ++ ["lib.rs"] ≠ location ++ [generatedFile] := fun heq =>
    absurd (List.append_cancel_left heq) (by decide)
  have hfind : (tree.set (location ++ [generatedFile]) node).find? (directory.join "lib.rs") =
      tree.find? (directory.join "lib.rs") := by
    rw [FileTree.find?_join hdirectory hlocation (by decide),
      FileTree.find?_join (FileTree.locate?_set hfree node hdirectory)
        (FileTree.hasDirectory_set hfree node hlocation) (by decide),
      FileTree.node?_set tree (by simp), if_neg hother]
  rw [FileTree.isFile, FileTree.isFile, FileTree.content?, FileTree.content?, hfind]

/-- The generated file is one more file of the crate. -/
theorem exists_filesOf_set (hdistinct : tree.IsDistinct)
    (hdirectory : tree.locate? directory = some location)
    (hlocation : tree.hasDirectory location)
    (hfree : tree.node? (location ++ [generatedFile]) = none) (node : FileNode) :
    ∃ front back, filesOf tree directory = front ++ back ∧
      filesOf (tree.set (location ++ [generatedFile]) node) directory =
        front ++ (generatedModule, directory.join generatedFile, node) :: back := by
  obtain ⟨front, back, hbelow, hbelow'⟩ := FileTree.exists_below_set hdistinct hfree node
  let stop : Location × FileNode → FilePath × FileNode := fun below =>
    (below.1.foldl FilePath.join directory, below.2)
  let file := fileOf? directory (tree.isFile (directory.join "lib.rs"))
  have hwalk : tree.walk directory =
      (directory, .directory) :: (front.map stop ++ back.map stop) := by
    rw [FileTree.walk, hdirectory]
    dsimp only
    rw [hbelow, List.map_append]
  have hwalk' : (tree.set (location ++ [generatedFile]) node).walk directory =
      (directory, .directory) ::
        (front.map stop ++ (directory.join generatedFile, node) :: back.map stop) := by
    rw [FileTree.walk, FileTree.locate?_set hfree node hdirectory]
    dsimp only
    rw [hbelow', List.map_append, List.map_cons]
    rfl
  have hgenerated := fileOf?_generatedFile directory (tree.isFile (directory.join "lib.rs")) node
  refine ⟨((directory, .directory) :: front.map stop).filterMap file,
    (back.map stop).filterMap file, ?_, ?_⟩
  · rw [filesOf_eq, hwalk, ← List.filterMap_append, List.cons_append]
  · rw [filesOf_eq, isFile_lib_set hdirectory hlocation hfree, hwalk', ← List.cons_append,
      List.filterMap_append, List.filterMap_cons_some hgenerated]

/-- A source directory leads to a directory, since the scan of anything else fails. -/
theorem exists_location_of_ofCrate {sources : List Source}
    (hsources : ofCrate tree directory = .ok sources) :
    ∃ location, tree.locate? directory = some location ∧ tree.hasDirectory location := by
  rw [ofCrate] at hsources
  split at hsources
  · rename_i hdirectory
    rw [FileTree.isDirectory, beq_iff_eq] at hdirectory
    obtain ⟨location, hlocation, hnode⟩ := Option.bind_eq_some_iff.mp hdirectory
    exact ⟨location, hlocation, beq_iff_eq.mpr hnode⟩
  · cases hsources

/-- The generated file is one more source of the crate. -/
theorem exists_ofCrate_set (hdistinct : tree.IsDistinct)
    (hdirectory : tree.locate? directory = some location)
    (hlocation : tree.hasDirectory location)
    (hfree : tree.node? (location ++ [generatedFile]) = none) {sources : List Source}
    (hsources : ofCrate tree directory = .ok sources) {text : String} {source : Source}
    (hsource : ofText? generatedModule text = some source) :
    ∃ front back, sources = front ++ back ∧
      ofCrate (tree.set (location ++ [generatedFile]) (.file (.text text))) directory =
        .ok (front ++ source :: back) := by
  obtain ⟨front, back, hfiles, hfiles'⟩ :=
    exists_filesOf_set hdistinct hdirectory hlocation hfree (.file (.text text))
  have hread := mapM_of_ofCrate hsources
  rw [hfiles, List.mapM_append] at hread
  obtain ⟨before, hbefore, hread⟩ := Results.bind_eq_ok_iff.mp hread
  obtain ⟨after, hafter, heq⟩ := Results.bind_eq_ok_iff.mp hread
  refine ⟨before, after, (Except.ok.inj heq).symm, ?_⟩
  have hisDirectory : (tree.set (location ++ [generatedFile]) (.file (.text text))).isDirectory
      directory := by
    rw [FileTree.isDirectory, FileTree.find?, FileTree.locate?_set hfree _ hdirectory]
    exact FileTree.hasDirectory_set hfree _ hlocation
  have hgenerated : ofFile generatedModule (directory.join generatedFile) (.file (.text text)) =
      .ok source := by
    rw [ofFile, hsource]
  rw [ofCrate, if_pos hisDirectory, hfiles', List.mapM_append, List.mapM_cons]
  refine Results.bind_eq_ok_iff.mpr ⟨before, hbefore, ?_⟩
  refine Results.bind_eq_ok_iff.mpr ⟨source :: after, ?_, rfl⟩
  refine Results.bind_eq_ok_iff.mpr ⟨source, hgenerated, ?_⟩
  exact Results.bind_eq_ok_iff.mpr ⟨after, hafter, rfl⟩

/-- If no source stands in the module of the generated file, nothing stands at its place. -/
theorem node?_eq_none_of_ofCrate (hdirectory : tree.locate? directory = some location)
    {sources : List Source} (hsources : ofCrate tree directory = .ok sources)
    (hmodule : ∀ source ∈ sources, source.module ≠ generatedModule) :
    tree.node? (location ++ [generatedFile]) = none := by
  by_contra hnode
  obtain ⟨node, hnode⟩ := Option.ne_none_iff_exists'.mp hnode
  have hbelow := FileTree.mem_below hnode
  have hfile : (generatedModule, directory.join generatedFile, node) ∈ filesOf tree directory := by
    rw [filesOf_eq, FileTree.walk, hdirectory]
    refine List.mem_filterMap.mpr ⟨(directory.join generatedFile, node), ?_, ?_⟩
    · exact List.mem_cons_of_mem _ (List.mem_map.mpr ⟨([generatedFile], node), hbelow, rfl⟩)
    · exact fileOf?_generatedFile directory _ node
  obtain ⟨source, hsource, hread⟩ :=
    Results.exists_of_mem_of_mapM_eq_ok (mapM_of_ofCrate hsources) hfile
  exact hmodule source hsource (module_of_ofFile hread)

end Source

end ServiceDispatch
