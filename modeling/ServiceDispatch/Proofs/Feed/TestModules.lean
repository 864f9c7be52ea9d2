import ServiceDispatch.Proofs.Feed.Privacy
import ServiceDispatch.Proofs.Files.ModulePaths
import ServiceDispatch.Proofs.Files.Walking
import ServiceDispatch.Proofs.Soundness.Rules

/-!
# Modules for tests only

The contents of a module item for tests only declare nothing. The files below such a module are
found by walking the directory all the same, and neither the module item nor the attributes inside
a file keep them out. So the candidates under a module for tests only are exactly the types of the
files under it.
-/

namespace ServiceDispatch

/-! ## Module items -/

namespace Item

mutual

/-- The module items of an item, with the modules in which they stand. What is inside a module for
tests only does not count. -/
def moduleItems (module : ItemPath) : Item → List (ItemPath × ModuleDecl)
  | .module decl (some items) =>
    (module, decl) ::
      if isTestOnly decl.attributes then [] else moduleItemsOfAll (module.join decl.name) items
  | .module decl none => [(module, decl)]
  | .other inner => moduleItemsOfAll module inner
  | _ => []

/-- The module items of some items, with the modules in which they stand. -/
def moduleItemsOfAll (module : ItemPath) : List Item → List (ItemPath × ModuleDecl)
  | [] => []
  | item :: items => item.moduleItems module ++ moduleItemsOfAll module items

end

/-- The module items of one of some items are among theirs. -/
theorem moduleItems_subset_moduleItemsOfAll {items : List Item} {item : Item} (hmem : item ∈ items)
    (module : ItemPath) : item.moduleItems module ⊆ moduleItemsOfAll module items := by
  induction items with
  | nil => exact absurd hmem List.not_mem_nil
  | cons first items ih =>
    rw [moduleItemsOfAll]
    rcases List.mem_cons.mp hmem with rfl | hmem
    · exact List.subset_append_left _ _
    · exact List.Subset.trans (ih hmem) (List.subset_append_right _ _)

/-- Every module item that stands among some items is one of theirs. -/
theorem mem_moduleItemsOfAll {module place : ItemPath} {items : List Item} {decl : ModuleDecl}
    {content : Option (List Item)} (hoccurs : Occurs module items place (.module decl content)) :
    (place, decl) ∈ moduleItemsOfAll module items := by
  generalize hitem : Item.module decl content = item at hoccurs
  induction hoccurs with
  | here hmem =>
    subst hitem
    refine moduleItems_subset_moduleItemsOfAll hmem _ ?_
    cases content <;> simp [moduleItems]
  | inModule hmem hcompiled hcontent ih =>
    refine moduleItems_subset_moduleItemsOfAll hmem _ ?_
    simpa [moduleItems, hcompiled] using .inr (ih hitem)
  | inItem hmem hinner ih => exact moduleItems_subset_moduleItemsOfAll hmem _ (ih hitem)

end Item

namespace Source

/-- The module items of a source, with the modules in which they stand. -/
def moduleItems (source : Source) : List (ItemPath × ModuleDecl) :=
  Item.moduleItemsOfAll source.module source.items

/-- Whether all items of a source that declare a module are for tests only. -/
def DeclaresForTests (source : Source) (module : ItemPath) : Prop :=
  ∀ item ∈ source.moduleItems, item.1.join item.2.name = module → isTestOnly item.2.attributes

instance (source : Source) (module : ItemPath) : Decidable (source.DeclaresForTests module) :=
  inferInstanceAs (Decidable (∀ _ ∈ _, _))

end Source

/-! ## Places under a module -/

namespace Occurs

/-- All items of a module stand under it, also those in modules and items inside it. -/
theorem isUnder_module {module place : ItemPath} {items : List Item} {item : Item}
    (hoccurs : Occurs module items place item) (hmodule : module.InCrate) :
    place.isUnder module := by
  induction hoccurs with
  | here hmem => exact ItemPath.isUnder_self _
  | @inModule module place items content item decl hmem hcompiled hcontent ih =>
    exact ItemPath.isUnder_trans (ih (hmodule.join decl.isSegment))
      (hmodule.isUnder_of_join decl.isSegment)
  | inItem hmem hinner ih => exact ih hmodule

/-- An item that stands under a module, among items of a module that does not, stands inside an item
that declares the module and is not for tests only. This is the first item on the way that leads
from outside to below. -/
theorem exists_declares {module place m : ItemPath} {items : List Item} {item : Item}
    (hoccurs : Occurs module items place item) (hmodule : module.InCrate) (hm : m.InCrate)
    (hplace : place.isUnder m) (houtside : ¬ module.isUnder m) :
    ∃ outer decl content, Occurs module items outer (.module decl content) ∧
      isTestOnly decl.attributes = false ∧ outer.join decl.name = m := by
  induction hoccurs with
  | here hmem => exact absurd hplace houtside
  | @inModule module place items content item decl hmem hcompiled hcontent ih =>
    by_cases hentered : (module.join decl.name).isUnder m
    · have hself := (hmodule.isUnder_join_iff hm decl.isSegment).mp hentered
      exact ⟨module, decl, some content, .here hmem, hcompiled,
        (hself.resolve_right houtside).symm⟩
    · obtain ⟨outer, inner, inside, hinner, hcompiled', hdeclares⟩ :=
        ih (hmodule.join decl.isSegment) hplace hentered
      exact ⟨outer, inner, inside, .inModule hmem hcompiled hinner, hcompiled', hdeclares⟩
  | inItem hmem hinner ih =>
    obtain ⟨outer, decl, content, hdecl, hcompiled, hdeclares⟩ := ih hmodule hplace houtside
    exact ⟨outer, decl, content, .inItem hmem hdecl, hcompiled, hdeclares⟩

end Occurs

namespace ItemPath

/-- Whether a path lies inside a module. -/
def isInside (p module : ItemPath) : Bool := p.isUnder module && p != module

/-- A member lies inside the modules that its own module is under. -/
theorem InCrate.isInside_join_iff {p m : ItemPath} (hp : p.InCrate) (hm : m.InCrate) {name : String}
    (hname : IsSegment name) : (p.join name).isInside m ↔ p.isUnder m := by
  rw [isInside, Bool.and_eq_true, bne_iff_ne, hp.isUnder_join_iff hm hname]
  constructor
  · rintro ⟨rfl | hunder, hne⟩
    · exact absurd rfl hne
    · exact hunder
  · intro hunder
    refine ⟨.inr hunder, ?_⟩
    rintro rfl
    exact hp.not_isUnder_join hname hunder

end ItemPath

/-! ## Candidates under a module -/

namespace Source

/-- The paths of the structs and enums of a source, in source order. -/
def typePaths (source : Source) : List ItemPath :=
  source.types.map fun (place, decl) => place.join decl.name

/-- The types of a source lie inside a module for tests only if the source does, and else none of
them does. -/
theorem filter_typePaths {source : Source} (hsource : source.module.InCrate) {m : ItemPath}
    (hm : m.InCrate) (htests : source.DeclaresForTests m) :
    source.typePaths.filter (·.isInside m) =
      if source.module.isUnder m then source.typePaths else [] := by
  have hinside : ∀ path ∈ source.typePaths, path.isInside m ↔ source.module.isUnder m := by
    intro path hpath
    obtain ⟨⟨place, type⟩, htype, rfl⟩ := List.mem_map.mp hpath
    have hoccurs := Item.occurs_of_mem_typesOfAll _ _ place type htype
    rw [(hoccurs.inCrate hsource).isInside_join_iff hm type.isSegment]
    constructor
    · intro hplace
      by_contra houtside
      obtain ⟨outer, decl, content, hdecl, hcompiled, hdeclares⟩ :=
        hoccurs.exists_declares hsource hm hplace houtside
      rw [htests (outer, decl) (Item.mem_moduleItemsOfAll hdecl) hdeclares] at hcompiled
      exact nomatch hcompiled
    · exact ItemPath.isUnder_trans (hoccurs.isUnder_module hsource)
  split
  · rename_i hunder
    exact List.filter_eq_self.mpr fun path hpath => (hinside path hpath).mpr hunder
  · rename_i houtside
    exact List.filter_eq_nil_iff.mpr fun path hpath h => houtside ((hinside path hpath).mp h)

end Source

namespace Feed

/-- The candidates are called like the types of the sources. -/
theorem map_name_candidates (settings : Settings) (sources : List Source) :
    (ofSources settings sources).candidates.map (·.name) = sources.flatMap Source.typePaths := by
  obtain ⟨found, hcandidates⟩ := candidates_ofSources settings sources
  rw [hcandidates, List.map_map, List.map_flatMap]
  rfl

/-- The candidates inside a module that is declared for tests only are the types of the sources
under it. -/
theorem filter_candidates_of_declaresForTests (settings : Settings) {sources : List Source}
    (hsources : ∀ source ∈ sources, source.module.InCrate) {m : ItemPath} (hm : m.InCrate)
    (htests : ∀ source ∈ sources, source.DeclaresForTests m) :
    ((ofSources settings sources).candidates.map (·.name)).filter (·.isInside m) =
      (sources.filter (·.module.isUnder m)).flatMap Source.typePaths := by
  rw [map_name_candidates, List.filter_flatMap]
  induction sources with
  | nil => rfl
  | cons source sources ih =>
    obtain ⟨hsource, hsources⟩ := List.forall_mem_cons.mp hsources
    obtain ⟨htest, htests⟩ := List.forall_mem_cons.mp htests
    rw [List.flatMap_cons, Source.filter_typePaths hsource hm htest, ih hsources htests,
      List.filter_cons]
    split <;> rfl

/-- The target of each rule of a feed is a candidate. -/
theorem exists_candidate_of_mem_table {settings : Settings} {feed : Feed} {artifact : Artifact}
    (hartifact : Artifact.ofFeed settings feed = .ok artifact) {rule : DispatchRule}
    (hrule : rule ∈ artifact.table) : ∃ c ∈ feed.candidates, c.name = rule.target := by
  obtain ⟨c, hc, htarget, -⟩ := Artifact.exists_rule_of_mem_table hartifact hrule
  exact ⟨c, hc, htarget.symm⟩

/-- In a crate in which all items that declare a module are for tests only, the candidates inside
the module are the types of the files under it, in their order, and so are the targets of the rules
inside it. What such an item holds in braces is skipped, while the files are scanned as they are
found in the tree. -/
theorem ofCrate_declaredForTests (settings : Settings) {tree : Files.FileTree}
    {directory : Files.FilePath} {sources : List Source}
    (hsources : Source.ofCrate tree directory = .ok sources) {m : ItemPath} (hm : m.InCrate)
    (htests : ∀ source ∈ sources, source.DeclaresForTests m) :
    ((ofSources settings sources).candidates.map (·.name)).filter (·.isInside m) =
        (sources.filter (·.module.isUnder m)).flatMap Source.typePaths ∧
      ∀ artifact, Artifact.ofCrate settings tree directory = .ok artifact →
        ∀ rule ∈ artifact.table, rule.target.isInside m →
          ∃ source ∈ sources, source.module.isUnder m ∧ rule.target ∈ source.typePaths := by
  have hcandidates := filter_candidates_of_declaresForTests settings
    (Source.inCrate_of_ofCrate hsources) hm htests
  refine ⟨hcandidates, fun artifact hartifact rule hrule hinside => ?_⟩
  rw [Artifact.ofCrate, ofCrate, hsources] at hartifact
  obtain ⟨c, hc, htarget⟩ := exists_candidate_of_mem_table hartifact hrule
  have hname : rule.target ∈ (ofSources settings sources).candidates.map (·.name) :=
    htarget ▸ List.mem_map_of_mem hc
  have hmem : rule.target ∈ (sources.filter (·.module.isUnder m)).flatMap Source.typePaths :=
    hcandidates ▸ List.mem_filter.mpr ⟨hname, hinside⟩
  obtain ⟨source, hsource, htarget⟩ := List.mem_flatMap.mp hmem
  obtain ⟨hsource, hunder⟩ := List.mem_filter.mp hsource
  exact ⟨source, hsource, hunder, htarget⟩

/-! ## A test module in a file -/

/-- The text of a file with a service. -/
def mockText : String :=
  "#[service]\npub struct Mock;\n" ++
    "impl Mock { pub fn new(c: &crate::hos::ServiceCtx) -> Self { Mock } }\n"

/-- A crate with a module item for tests only, the file of that module with a service, and a file
that declares itself to be for tests only. -/
def testModuleFile : Files.FileTree where
  nodes := [(["src"], .directory), (["src", "hos"], .directory),
    (["src", "hos", "services"], .directory),
    (["src", "hos", "services", "fakes.rs"], .file (.text "#![cfg(test)]\npub struct Fake;\n")),
    (["src", "hos", "services", "tests.rs"], .file (.text mockText)),
    (["src", "hos", "services.rs"], .file (.text "#[cfg(test)]\nmod tests;\nmod fakes;\n")),
    (["src", "hos.rs"], .file (.text "pub struct ServiceCtx;\n"))]

/-- The files of the crate with their modules, among them one that is declared for tests only. -/
theorem filesOf_testModuleFile : Source.filesOf testModuleFile ⟨"src"⟩ = [
    (⟨"crate::hos::services::fakes"⟩, ⟨"src/hos/services/fakes.rs"⟩,
      .file (.text "#![cfg(test)]\npub struct Fake;\n")),
    (⟨"crate::hos::services::tests"⟩, ⟨"src/hos/services/tests.rs"⟩, .file (.text mockText)),
    (⟨"crate::hos::services"⟩, ⟨"src/hos/services.rs"⟩,
      .file (.text "#[cfg(test)]\nmod tests;\nmod fakes;\n")),
    (⟨"crate::hos"⟩, ⟨"src/hos.rs"⟩, .file (.text "pub struct ServiceCtx;\n"))] := by
  have hsorted : testModuleFile.nodes.Pairwise fun a b => Files.FileTree.comesBefore a.1 b.1 := by
    decide +kernel
  have hlocate : testModuleFile.locate? ⟨"src"⟩ = some ["src"] := by decide
  rw [Source.filesOf, Files.FileTree.walk, hlocate]
  simp only [Files.FileTree.below_of_pairwise hsorted]
  decide +kernel

/-- The source directory of the crate exists. -/
theorem isDirectory_testModuleFile : testModuleFile.isDirectory ⟨"src"⟩ := by decide

/-- All items that declare the test module are for tests only. The types of all files are
candidates, and the one service among them has a rule. -/
theorem exists_sources_testModuleFile :
    ∃ sources, Source.ofCrate testModuleFile ⟨"src"⟩ = .ok sources ∧
      (∀ source ∈ sources, source.DeclaresForTests ⟨"crate::hos::services::tests"⟩) ∧
      (ofSources {} sources).candidates.map (·.name) =
        [⟨"crate::hos::services::fakes::Fake"⟩, ⟨"crate::hos::services::tests::Mock"⟩,
          ⟨"crate::hos::ServiceCtx"⟩] ∧
      (Artifact.ofFeed {} (ofSources {} sources)).toOption.map (·.table.map (·.target)) =
        some [⟨"crate::hos::services::tests::Mock"⟩] := by
  have hfound : (Source.ofCrate testModuleFile ⟨"src"⟩).toOption.any fun sources =>
      decide ((∀ source ∈ sources, source.DeclaresForTests ⟨"crate::hos::services::tests"⟩) ∧
        (ofSources {} sources).candidates.map (·.name) =
          [⟨"crate::hos::services::fakes::Fake"⟩, ⟨"crate::hos::services::tests::Mock"⟩,
            ⟨"crate::hos::ServiceCtx"⟩] ∧
        (Artifact.ofFeed {} (ofSources {} sources)).toOption.map (·.table.map (·.target)) =
          some [⟨"crate::hos::services::tests::Mock"⟩]) := by
    rw [Source.ofCrate, if_pos isDirectory_testModuleFile, filesOf_testModuleFile]
    decide +kernel
  cases hsources : Source.ofCrate testModuleFile ⟨"src"⟩ with
  | error e =>
    rw [hsources] at hfound
    cases hfound
  | ok sources =>
    rw [hsources] at hfound
    exact ⟨sources, rfl, of_decide_eq_true hfound⟩

/-- The service of the test module is the only candidate in it, although every item that declares
the module is for tests only. -/
theorem filter_candidates_testModuleFile :
    ∃ sources m, Source.ofCrate testModuleFile ⟨"src"⟩ = .ok sources ∧ m.InCrate ∧
      (∀ source ∈ sources, source.DeclaresForTests m) ∧
      (sources.filter (·.module.isUnder m)).flatMap Source.typePaths = [m.join "Mock"] := by
  obtain ⟨sources, hsources, htests, hnames, -⟩ := exists_sources_testModuleFile
  have hm : (ItemPath.mk "crate::hos::services::tests").InCrate :=
    ⟨["hos", "services", "tests"], by decide, rfl⟩
  have hinside := (ofCrate_declaredForTests {} hsources hm htests).1
  rw [hnames] at hinside
  exact ⟨sources, _, hsources, hm, htests, hinside.symm.trans (by decide)⟩

/-- Although all items that declare the module are for tests only, a candidate lies inside it, and
so does the target of a rule. -/
theorem mem_candidates_testModuleFile :
    ∃ sources artifact m, Source.ofCrate testModuleFile ⟨"src"⟩ = .ok sources ∧
      Artifact.ofCrate {} testModuleFile ⟨"src"⟩ = .ok artifact ∧
      (∀ source ∈ sources, source.DeclaresForTests m) ∧
      (∃ c ∈ (ofSources {} sources).candidates, c.name.isInside m) ∧
      ∃ rule ∈ artifact.table, rule.target.isInside m := by
  obtain ⟨sources, hsources, htests, hnames, htable⟩ := exists_sources_testModuleFile
  have hinside : (ItemPath.mk "crate::hos::services::tests::Mock").isInside
      ⟨"crate::hos::services::tests"⟩ := by decide
  cases hartifact : Artifact.ofFeed {} (ofSources {} sources) with
  | error e =>
    rw [hartifact] at htable
    exact nomatch htable
  | ok artifact =>
    rw [hartifact] at htable
    have hcrate : Artifact.ofCrate {} testModuleFile ⟨"src"⟩ = .ok artifact := by
      rw [Artifact.ofCrate, ofCrate, hsources]
      exact hartifact
    obtain ⟨c, hc, hname⟩ : ∃ c ∈ (ofSources {} sources).candidates,
        c.name = ⟨"crate::hos::services::tests::Mock"⟩ := List.mem_map.mp (by simp [hnames])
    obtain ⟨rule, hrule, htarget⟩ : ∃ rule ∈ artifact.table,
        rule.target = ⟨"crate::hos::services::tests::Mock"⟩ :=
      List.mem_map.mp (by simp [Option.some.inj htable])
    exact ⟨sources, artifact, _, hsources, hcrate, htests, ⟨c, hc, hname ▸ hinside⟩,
      ⟨rule, hrule, htarget ▸ hinside⟩⟩

end Feed

end ServiceDispatch
