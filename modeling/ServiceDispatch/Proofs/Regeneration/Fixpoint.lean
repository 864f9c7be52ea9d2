import ServiceDispatch.CommandLine.Run
import ServiceDispatch.Proofs.Regeneration.Crates
import ServiceDispatch.Proofs.Regeneration.LegibleRules

/-!
# Generating again

When the generated file stands in the scanned tree, the next pass reads it like any other file.
-/

namespace ServiceDispatch

open Files (FilePath FileTree)

/-- Names that are added to a table stand behind its external crates. -/
theorem SymbolTable.externCrates_foldl_addExternCrate (names : List String) (table : SymbolTable) :
    (names.foldl addExternCrate table).externCrates = table.externCrates ++ names := by
  induction names generalizing table with
  | nil => exact (List.append_nil _).symm
  | cons first rest ih =>
    rw [List.foldl_cons, ih]
    exact List.append_assoc _ [first] rest

/-- The external crates of sources are the standard ones and those of the settings. -/
theorem Feed.mem_externCrates_ofSources {settings : Settings} {sources : List Source}
    {name : String} (hname : name ∈ (ofSources settings sources).symbols.externCrates) :
    name ∈ ["std", "core", "alloc"] ∨ name ∈ settings.externCrates := by
  have htable : (ofSources settings sources).symbols.externCrates =
      ["std", "core", "alloc"] ++ settings.externCrates := by
    have hdeclared := SymbolTable.externCrates_foldl_declare
      (allDeclarations settings sources) (settings.externCrates.foldl SymbolTable.addExternCrate {})
    exact hdeclared.trans (SymbolTable.externCrates_foldl_addExternCrate settings.externCrates {})
  rw [htable] at hname
  exact List.mem_append.mp hname

/-- Checking an artifact that is up to date succeeds and leaves the files. -/
theorem CommandLine.generate_of_isCurrent {settings : Settings} {tree : FileTree}
    {directory output : FilePath} {artifact : Artifact}
    (hartifact : Artifact.ofCrate settings tree directory = .ok artifact)
    (hcurrent : artifact.isCurrent tree output) :
    generate settings tree directory output true =
      ⟨["Scanning " ++ directory.text ++ " for services...", upToDate output], none, tree⟩ := by
  simp only [generate, if_true, hartifact, hcurrent]

namespace Artifact

variable {settings : Settings} {tree after : FileTree} {directory : FilePath}

/-- The text of an artifact that was put where there was nothing is up to date. -/
theorem isCurrent_set (artifact : Artifact) {location : Files.Location}
    (hdirectory : tree.locate? directory = some location) (hlocation : tree.hasDirectory location)
    {name : String} (hname : Files.IsFileName name)
    (hfree : tree.node? (location ++ [name]) = none) :
    artifact.isCurrent (tree.set (location ++ [name]) (.file (.text artifact.source)))
      (directory.join name) := by
  rw [isCurrent, FileTree.text?, FileTree.content?,
    FileTree.find?_join (FileTree.locate?_set hfree _ hdirectory)
      (FileTree.hasDirectory_set hfree _ hlocation) hname,
    FileTree.node?_set tree (by simp), if_pos rfl]
  exact beq_self_eq_true _

/-- If the generated file is no source yet, it is written where there was nothing. -/
theorem exists_generateTo {sources : List Source}
    (hsources : Source.ofCrate tree directory = .ok sources)
    (hmodule : ∀ source ∈ sources, source.module ≠ generatedModule) {artifact : Artifact}
    (hartifact : ofCrate settings tree directory = .ok artifact) :
    ∃ location, tree.locate? directory = some location ∧ tree.hasDirectory location ∧
      tree.node? (location ++ [generatedFile]) = none ∧
      generateTo settings tree directory (directory.join generatedFile) =
        (tree.set (location ++ [generatedFile]) (.file (.text artifact.source)),
          .ok (artifact, true)) := by
  obtain ⟨location, hdirectory, hlocation⟩ := Source.exists_location_of_ofCrate hsources
  have hfree := Source.node?_eq_none_of_ofCrate hdirectory hsources hmodule
  have hname : Files.IsFileName generatedFile := by decide
  have habsent : artifact.isCurrent tree (directory.join generatedFile) = false := by
    rw [isCurrent, FileTree.text?, FileTree.content?,
      FileTree.find?_join hdirectory hlocation hname, hfree]
    rfl
  have hwrite := FileTree.write_join hdirectory hlocation hname
    (by rw [FileTree.hasDirectory, hfree]; rfl) (.text artifact.source)
  refine ⟨location, hdirectory, hlocation, hfree, ?_⟩
  rw [generateTo, hartifact]
  simp only [writeTo, habsent, hwrite, Bool.false_eq_true, if_false]
  rfl

/-- Generating writes the artifact of the crate where there was nothing. -/
theorem generateTo_eq {sources : List Source}
    (hsources : Source.ofCrate tree directory = .ok sources)
    (hmodule : ∀ source ∈ sources, source.module ≠ generatedModule) {artifact : Artifact}
    {written : Bool}
    (hgenerate : generateTo settings tree directory (directory.join generatedFile) =
      (after, .ok (artifact, written))) :
    ofCrate settings tree directory = .ok artifact ∧
      ∃ location, tree.locate? directory = some location ∧ tree.hasDirectory location ∧
        tree.node? (location ++ [generatedFile]) = none ∧
        after = tree.set (location ++ [generatedFile]) (.file (.text artifact.source)) := by
  cases hartifact : ofCrate settings tree directory with
  | error e =>
    rw [generateTo, hartifact] at hgenerate
    cases hgenerate
  | ok found =>
    obtain ⟨location, hdirectory, hlocation, hfree, hwritten⟩ :=
      exists_generateTo hsources hmodule hartifact
    rw [hwritten] at hgenerate
    cases hgenerate
    exact ⟨rfl, location, hdirectory, hlocation, hfree, rfl⟩

/-- If the generated file is read as a source without constructors, generating again gives the same
artifact, and the file is up to date. -/
theorem generateTo_again_of_ofText? (hdistinct : tree.IsDistinct) {sources : List Source}
    (hsources : Source.ofCrate tree directory = .ok sources)
    (hnamed : ∀ source ∈ sources, source.NamedBy (IsOtherThan generatedName))
    (hcrates : generatedName ∉ settings.externCrates) {artifact : Artifact} {written : Bool}
    (hgenerate : generateTo settings tree directory (directory.join generatedFile) =
      (after, .ok (artifact, written))) {source : Source}
    (hread : Source.ofText? generatedModule artifact.source = some source)
    (hsilent : source.IsSilent generatedName) :
    ofCrate settings after directory = .ok artifact ∧
      artifact.writeTo after (directory.join generatedFile) = (after, .ok false) ∧
      (CommandLine.generate settings after directory (directory.join generatedFile) true).status =
        0 ∧
      (CommandLine.generate settings after directory (directory.join generatedFile) true).files =
        after := by
  have hname : IsIdentifier generatedName := by decide
  have hunknown : ∀ p, SymbolTable.wellKnown generatedName ≠ .ok p := fun _ heq => nomatch heq
  have hmodule : ∀ source ∈ sources, source.module ≠ generatedModule := fun source hsource =>
    ItemPath.MadeOf.ne_join_root (hnamed source hsource).module hname.isSegment
  obtain ⟨hartifact, location, hdirectory, hlocation, hfree, rfl⟩ :=
    generateTo_eq hsources hmodule hgenerate
  obtain ⟨front, back, rfl, hsources'⟩ :=
    Source.exists_ofCrate_set hdistinct hdirectory hlocation hfree hsources hread
  have hfeed : ofFeed settings (Feed.ofSources settings (front ++ back)) = .ok artifact := by
    rw [ofCrate, Feed.ofCrate, hsources] at hartifact
    exact hartifact
  have hfeed' : ofFeed settings (Feed.ofSources settings (front ++ source :: back)) =
      .ok artifact := by
    refine Feed.ofFeed_insert hname hunknown ?_ hnamed hsilent hfeed
    intro hmem
    rcases Feed.mem_externCrates_ofSources hmem with hstandard | hgiven
    · exact absurd hstandard (by decide)
    · exact hcrates hgiven
  have hagain : ofCrate settings
      (tree.set (location ++ [generatedFile]) (.file (.text artifact.source))) directory =
        .ok artifact := by
    rw [ofCrate, Feed.ofCrate, hsources']
    exact hfeed'
  have hcurrent : artifact.isCurrent
      (tree.set (location ++ [generatedFile]) (.file (.text artifact.source)))
        (directory.join generatedFile) :=
    artifact.isCurrent_set hdirectory hlocation (by decide) hfree
  have hchecked := CommandLine.generate_of_isCurrent hagain hcurrent
  refine ⟨hagain, by rw [writeTo, if_pos hcurrent], ?_, ?_⟩
  · rw [hchecked]
    rfl
  · rw [hchecked]

/-! ## Crates of one file -/

/-- A crate of one file. -/
def hosCrate (text : String) : FileTree where
  nodes := [(["src"], .directory), (["src", "hos.rs"], .file (.text text))]

/-- No two nodes of the crate have one location. -/
theorem isDistinct_hosCrate (text : String) : (hosCrate text).IsDistinct :=
  (by decide : [["src"], ["src", "hos.rs"]].Nodup)

/-- A walk meets the directory and the file. -/
theorem walk_hosCrate (text : String) : (hosCrate text).walk ⟨"src"⟩ =
    [(⟨"src"⟩, .directory), (⟨"src/hos.rs"⟩, .file (.text text))] := by
  have hsorted : (hosCrate text).nodes.Pairwise fun a b => FileTree.comesBefore a.1 b.1 :=
    List.pairwise_pair.mpr (by decide : FileTree.comesBefore ["src"] ["src", "hos.rs"])
  have hlocate : (hosCrate text).locate? ⟨"src"⟩ = some ["src"] := rfl
  rw [FileTree.walk, hlocate]
  simp only [FileTree.below_of_pairwise hsorted]
  rfl

/-- The file of the crate with its module. -/
theorem filesOf_hosCrate (text : String) : Source.filesOf (hosCrate text) ⟨"src"⟩ =
    [(⟨"crate::hos"⟩, ⟨"src/hos.rs"⟩, .file (.text text))] := by
  have hfile : (FilePath.mk "src").extension? ≠ some "rs" ∧
      (FilePath.mk "src/hos.rs").extension? = some "rs" ∧
      (FilePath.mk "src/hos.rs").components ≠ (FilePath.join ⟨"src"⟩ "main.rs").components ∧
      Files.modulePath? ⟨"src"⟩ ⟨"src/hos.rs"⟩ = some ⟨"crate::hos"⟩ := by decide
  obtain ⟨hdirectory, hextension, hmain, hmodule⟩ := hfile
  rw [Source.filesOf_eq, walk_hosCrate]
  simp [Source.fileOf?, hdirectory, hextension, hmain, hmodule]

/-- The source of the crate is that of its file. -/
theorem ofCrate_hosCrate {text : String} {source : Source}
    (hsource : Source.ofText? ⟨"crate::hos"⟩ text = some source) :
    Source.ofCrate (hosCrate text) ⟨"src"⟩ = .ok [source] := by
  have hdirectory : (hosCrate text).isDirectory ⟨"src"⟩ := rfl
  rw [Source.ofCrate, if_pos hdirectory, filesOf_hosCrate]
  simp only [List.mapM_cons, List.mapM_nil, Source.ofFile, hsource]
  rfl

/-- The artifact of the crate is that of its file. -/
theorem exists_generateTo_hosCrate {text : String} {source : Source}
    (hsource : Source.ofText? ⟨"crate::hos"⟩ text = some source) {artifact : Artifact}
    (hartifact : ofFeed settings (Feed.ofSources settings [source]) = .ok artifact) :
    ∃ after, generateTo settings (hosCrate text) ⟨"src"⟩ (FilePath.join ⟨"src"⟩ generatedFile) =
      (after, .ok (artifact, true)) := by
  have hsources := ofCrate_hosCrate hsource
  have hmodule : ∀ other ∈ [source], other.module ≠ generatedModule := by
    obtain ⟨items, -, rfl⟩ := Option.map_eq_some_iff.mp hsource
    exact List.forall_mem_singleton.mpr (by decide : ItemPath.mk "crate::hos" ≠ generatedModule)
  have hcrate : ofCrate settings (hosCrate text) ⟨"src"⟩ = .ok artifact := by
    rw [ofCrate, Feed.ofCrate, hsources]
    exact hartifact
  obtain ⟨location, -, -, -, hgenerate⟩ := exists_generateTo hsources hmodule hcrate
  exact ⟨_, hgenerate⟩

/-! ## Generating again -/

/-- The text of the artifact of a feed is that of its table. -/
theorem source_of_ofFeed {feed : Feed} {artifact : Artifact}
    (hartifact : ofFeed settings feed = .ok artifact) :
    artifact.source = artifact.table.source settings := by
  unfold ofFeed ofCandidates at hartifact
  split at hartifact
  · obtain rfl := Except.ok.inj hartifact
    rfl
  · cases hartifact

/-- If all names, paths and parameter types can be read, the generated file is read as source text,
generating again gives the same artifact, and the file is up to date. The hypotheses exclude trees
with two nodes in one place; names that are no identifiers, among them the empty path that an import
may bind; the name of the generated module, as that of an item, an import or an external crate; and
settings and parameter types whose text is not read as what they are. -/
theorem generateTo_again (hdistinct : tree.IsDistinct) {sources : List Source}
    (hsources : Source.ofCrate tree directory = .ok sources)
    (hnamed : ∀ source ∈ sources, source.NamedBy (IsOtherThan generatedName))
    (hcrates : generatedName ∉ settings.externCrates) (hsettings : settings.IsLegible)
    (hconstructors : ∀ c ∈ (Feed.ofSources settings sources).candidates,
      ∀ constructor ∈ c.constructors, constructor.IsLegible) {artifact : Artifact} {written : Bool}
    (hgenerate : generateTo settings tree directory (directory.join generatedFile) =
      (after, .ok (artifact, written))) :
    (Item.ofFile? artifact.source).isSome ∧ ofCrate settings after directory = .ok artifact ∧
      artifact.writeTo after (directory.join generatedFile) = (after, .ok false) ∧
      (CommandLine.generate settings after directory (directory.join generatedFile) true).status =
        0 ∧
      (CommandLine.generate settings after directory (directory.join generatedFile) true).files =
        after := by
  have hname : IsIdentifier generatedName := by decide
  have hmodule : ∀ source ∈ sources, source.module ≠ generatedModule := fun source hsource =>
    ItemPath.MadeOf.ne_join_root (hnamed source hsource).module hname.isSegment
  have hartifact : ofFeed settings (Feed.ofSources settings sources) = .ok artifact := by
    have hcrate := (generateTo_eq hsources hmodule hgenerate).1
    rwa [ofCrate, Feed.ofCrate, hsources] at hcrate
  have hrules := isLegible_of_mem_table
    (fun source hsource => (hnamed source hsource).mono fun _ h => h.1) hconstructors hartifact
  obtain ⟨decl, hfile, hsilent⟩ := DispatchTable.exists_ofFile?_source hsettings hrules
  rw [← source_of_ofFeed hartifact] at hfile
  have hread : Source.ofText? generatedModule artifact.source =
      some ⟨generatedModule, [.impl decl]⟩ := by
    rw [Source.ofText?, hfile]
    rfl
  exact ⟨Option.isSome_of_eq_some hfile, generateTo_again_of_ofText? hdistinct hsources hnamed
    hcrates hgenerate hread ⟨rfl, List.forall_mem_singleton.mpr hsilent⟩⟩

/-- The text of a file with a context and a service with a payload. -/
def ringText : String :=
  "pub struct Ctx;\n#[service]\npub struct Ring;\n" ++
    "impl Ring { pub fn new(c: &mut Ctx, size: u32) -> Self { Ring } }\n"

/-- The settings with the module and the context of the file. -/
def hosSettings : Settings where
  rootNamespace := ⟨"crate::hos"⟩
  contextType := ⟨"crate::hos::Ctx"⟩
  serviceTrait := ⟨"crate::Service"⟩
  enclosingType := ⟨"crate::Host"⟩
  functionName := "get"

/-- The paths in the settings can be read. -/
theorem isLegible_hosSettings : hosSettings.IsLegible where
  context := ⟨_, _, ItemPath.isLegible_ofNames (by decide : ["hos", "Ctx"] ≠ []) (by decide)⟩
  trait := ⟨_, _, ItemPath.isLegible_ofNames (by decide : ["Service"] ≠ []) (by decide)⟩
  enclosing := ⟨_, _, ItemPath.isLegible_ofNames (by decide : ["Host"] ≠ []) (by decide)⟩
  function := by decide

/-- A constructor that takes the context and a number. -/
def ringConstructor : Constructor :=
  ⟨"new", [⟨"& mut Ctx", "Ctx", .mutable, ⟨"crate::hos"⟩⟩,
    ⟨"u32", "u32", .value, ⟨"crate::hos"⟩⟩]⟩

/-- The constructor and its parameters can be read. -/
theorem isLegible_ringConstructor : ringConstructor.IsLegible where
  name := by decide
  params := by
    simp only [ringConstructor, List.forall_mem_cons]
    exact ⟨fun type htype => Ty.isLegible_parts_of_name (by decide) (by decide) htype,
      fun type htype => Ty.isLegible_parts_of_name (by decide) (by decide) htype, nofun⟩

/-- The file is read as types and an `impl` block with the constructor, and the service has a
rule. -/
theorem exists_ofFeed_ringText : ∃ source artifact,
    Source.ofText? ⟨"crate::hos"⟩ ringText = some source ∧
      (∀ item ∈ source.items, item.IsFlat (IsOtherThan generatedName)) ∧
      (Feed.ofSources hosSettings [source]).candidates.flatMap (·.constructors) =
        [ringConstructor] ∧
      ofFeed hosSettings (Feed.ofSources hosSettings [source]) = .ok artifact ∧
      artifact.table = [⟨⟨"crate::hos::Ring"⟩, none, some ⟨"new", .mutable, .value, "u32"⟩⟩] := by
  have hfound : (Source.ofText? ⟨"crate::hos"⟩ ringText).any fun source =>
      decide ((∀ item ∈ source.items, item.IsFlat (IsOtherThan generatedName)) ∧
        (Feed.ofSources hosSettings [source]).candidates.flatMap (·.constructors) =
          [ringConstructor] ∧
        (ofFeed hosSettings (Feed.ofSources hosSettings [source])).toOption.map (·.table) =
          some [⟨⟨"crate::hos::Ring"⟩, none, some ⟨"new", .mutable, .value, "u32"⟩⟩]) := by
    decide +kernel
  obtain ⟨source, hsource, hfound⟩ := (Option.any_eq_true _ _).mp hfound
  obtain ⟨hitems, hcandidates, htable⟩ := of_decide_eq_true hfound
  cases hartifact : ofFeed hosSettings (Feed.ofSources hosSettings [source]) with
  | error e =>
    rw [hartifact] at htable
    cases htable
  | ok artifact =>
    rw [hartifact] at htable
    exact ⟨source, artifact, hsource, hitems, hcandidates, hartifact, Option.some.inj htable⟩

/-- The rule of a service with a payload is found again beside the generated file, and nothing is
written the second time. -/
theorem generateTo_again_ringText : ∃ sources after artifact,
    (hosCrate ringText).IsDistinct ∧
      Source.ofCrate (hosCrate ringText) ⟨"src"⟩ = .ok sources ∧
      (∀ source ∈ sources, source.NamedBy (IsOtherThan generatedName)) ∧
      generatedName ∉ hosSettings.externCrates ∧ hosSettings.IsLegible ∧
      (∀ c ∈ (Feed.ofSources hosSettings sources).candidates,
        ∀ constructor ∈ c.constructors, constructor.IsLegible) ∧
      generateTo hosSettings (hosCrate ringText) ⟨"src"⟩ (FilePath.join ⟨"src"⟩ generatedFile) =
        (after, .ok (artifact, true)) ∧
      artifact.table = [⟨⟨"crate::hos::Ring"⟩, none, some ⟨"new", .mutable, .value, "u32"⟩⟩] ∧
      ofCrate hosSettings after ⟨"src"⟩ = .ok artifact ∧
      artifact.writeTo after (FilePath.join ⟨"src"⟩ generatedFile) = (after, .ok false) := by
  obtain ⟨source, artifact, hsource, hitems, hcandidates, hartifact, htable⟩ :=
    exists_ofFeed_ringText
  obtain ⟨after, hgenerate⟩ := exists_generateTo_hosCrate hsource hartifact
  have hsources := ofCrate_hosCrate hsource
  have hnamed : ∀ other ∈ [source], other.NamedBy (IsOtherThan generatedName) := by
    obtain ⟨items, -, rfl⟩ := Option.map_eq_some_iff.mp hsource
    exact List.forall_mem_singleton.mpr
      (Source.namedBy_of_isFlat ⟨["hos"], by decide, rfl⟩ hitems)
  have hconstructors : ∀ c ∈ (Feed.ofSources hosSettings [source]).candidates,
      ∀ constructor ∈ c.constructors, constructor.IsLegible := by
    intro c hc constructor hconstructor
    have hmem := List.mem_flatMap.mpr ⟨c, hc, hconstructor⟩
    rw [hcandidates, List.mem_singleton] at hmem
    rw [hmem]
    exact isLegible_ringConstructor
  have hcrates : generatedName ∉ hosSettings.externCrates := by decide
  obtain ⟨-, hagain, hcurrent, -⟩ := generateTo_again (isDistinct_hosCrate ringText) hsources hnamed
    hcrates isLegible_hosSettings hconstructors hgenerate
  exact ⟨[source], after, artifact, isDistinct_hosCrate ringText, hsources, hnamed, hcrates,
    isLegible_hosSettings, hconstructors, hgenerate, htable, hagain, hcurrent⟩

/-- A generated file that is not read as source text makes the next pass fail. -/
theorem ofCrate_ne_ok_of_ofFile? (hdistinct : tree.IsDistinct) {sources : List Source}
    (hsources : Source.ofCrate tree directory = .ok sources)
    (hmodule : ∀ source ∈ sources, source.module ≠ generatedModule) {artifact : Artifact}
    {written : Bool}
    (hgenerate : generateTo settings tree directory (directory.join generatedFile) =
      (after, .ok (artifact, written)))
    (hread : Item.ofFile? artifact.source = none) (again : Artifact) :
    ofCrate settings after directory ≠ .ok again := by
  obtain ⟨-, location, hdirectory, hlocation, hfree, rfl⟩ :=
    generateTo_eq hsources hmodule hgenerate
  obtain ⟨front, back, -, hfiles⟩ := Source.exists_filesOf_set hdistinct hdirectory hlocation hfree
    (.file (.text artifact.source))
  intro hagain
  obtain ⟨feed, hfeed, -⟩ := Results.bind_eq_ok_iff.mp hagain
  obtain ⟨sources', hsources', -⟩ := Results.map_eq_ok_iff.mp hfeed
  have hmem : (generatedModule, directory.join generatedFile,
      Files.FileNode.file (.text artifact.source)) ∈ Source.filesOf
        (tree.set (location ++ [generatedFile]) (.file (.text artifact.source))) directory := by
    rw [hfiles]
    exact List.mem_append_right front List.mem_cons_self
  obtain ⟨source, -, hsource⟩ :=
    Results.exists_of_mem_of_mapM_eq_ok (Source.mapM_of_ofCrate hsources') hmem
  simp only [Source.ofFile, Source.ofText?, hread, Option.map_none] at hsource
  cases hsource

/-- The text of a file that imports the empty path under a name and takes it as a payload. -/
def emptyPathText : String :=
  "use ::{self as x};\npub struct Ctx;\n#[service]\npub struct Ring;\n" ++
    "impl Ring { pub fn new(c: &Ctx, p: x) -> Self { Ring } }\n"

/-- The rule of the service with the empty path as its payload type. -/
def emptyPathRule : DispatchRule :=
  ⟨⟨"crate::hos::Ring"⟩, none, some ⟨"new", .shared, .value, "::"⟩⟩

/-- A pass over the file gives the rule, whose payload type is an empty path. -/
theorem exists_ofFeed_emptyPathText : ∃ source artifact,
    Source.ofText? ⟨"crate::hos"⟩ emptyPathText = some source ∧
      ofFeed hosSettings (Feed.ofSources hosSettings [source]) = .ok artifact ∧
      artifact.table = [emptyPathRule] := by
  have hfound : (Source.ofText? ⟨"crate::hos"⟩ emptyPathText).any fun source =>
      decide ((ofFeed hosSettings (Feed.ofSources hosSettings [source])).toOption.map (·.table) =
        some [emptyPathRule]) := by
    decide +kernel
  obtain ⟨source, hsource, hfound⟩ := (Option.any_eq_true _ _).mp hfound
  have htable := of_decide_eq_true hfound
  cases hartifact : ofFeed hosSettings (Feed.ofSources hosSettings [source]) with
  | error e =>
    rw [hartifact] at htable
    cases htable
  | ok artifact =>
    rw [hartifact] at htable
    exact ⟨source, artifact, hsource, hartifact, Option.some.inj htable⟩

/-- The text of the rule is not read, since two colons alone are no type. -/
theorem ofFile?_emptyPathRule :
    Item.ofFile? (DispatchTable.source [emptyPathRule] hosSettings) = none := by
  have hunread : ((Lexer.fileTokens? ((CodeBuffer.writtenTexts 0
      (DispatchTable.steps [emptyPathRule] hosSettings)).flatMap String.toList)).bind
        (Grammar.readAll? Grammar.file)).isNone := by
    decide +kernel
  rw [Item.ofFile?, DispatchTable.source_eq, CodeBuffer.toList_written]
  exact Option.isNone_iff_eq_none.mp hunread

/-- Although every name in a crate and its settings can be read, the generated file may not be, and
then the next pass fails. The name that the import binds stands for a path without names. -/
theorem generateTo_emptyPathText : ∃ after artifact, hosSettings.IsLegible ∧
    generateTo hosSettings (hosCrate emptyPathText) ⟨"src"⟩ (FilePath.join ⟨"src"⟩ generatedFile) =
      (after, .ok (artifact, true)) ∧
    Item.ofFile? artifact.source = none ∧
    ∀ again, ofCrate hosSettings after ⟨"src"⟩ ≠ .ok again := by
  obtain ⟨source, artifact, hsource, hartifact, htable⟩ := exists_ofFeed_emptyPathText
  have hread : Item.ofFile? artifact.source = none := by
    rw [source_of_ofFeed hartifact, htable, ofFile?_emptyPathRule]
  obtain ⟨after, hgenerate⟩ := exists_generateTo_hosCrate hsource hartifact
  have hmodule : ∀ other ∈ [source], other.module ≠ generatedModule := by
    obtain ⟨items, -, rfl⟩ := Option.map_eq_some_iff.mp hsource
    exact List.forall_mem_singleton.mpr (by decide : ItemPath.mk "crate::hos" ≠ generatedModule)
  exact ⟨after, artifact, isLegible_hosSettings, hgenerate, hread, ofCrate_ne_ok_of_ofFile?
    (isDistinct_hosCrate emptyPathText) (ofCrate_hosCrate hsource) hmodule hgenerate hread⟩

end Artifact

end ServiceDispatch
