import ServiceDispatch.Proofs.Feed.TestModules
import ServiceDispatch.Proofs.Files.Places
import ServiceDispatch.Proofs.Regeneration.Avoiding

/-!
# Files of module items

The path of a module is found in two ways: from the module item that declares it, and from the place
of its file. Both agree if the names on the way are written as they are in the place. A raw name is
not, and then the visibility of the module item is recorded for a module that has no file.
-/

namespace ServiceDispatch

/-! ## Names of files -/

namespace Files

/-- The name by which the file system knows a module: a raw name without its mark. -/
def plainName (name : String) : String :=
  match name.toList with
  | 'r' :: '#' :: rest => String.ofList rest
  | _ => name

/-- The places at which the file of a module may stand: beside its directory or in it. -/
def modulePlaces (names : List String) (name : String) : List (List String) :=
  let directories := names.map plainName
  [directories ++ [plainName name ++ ".rs"], directories ++ [plainName name, "mod.rs"]]

/-- Whether a file at a place is compiled by itself: as the root of a library or of a program. -/
def IsTarget (place : List String) : Prop :=
  place = ["lib.rs"] ∨ place = ["main.rs"] ∨ place.head? = some "bin"

instance (place : List String) : Decidable (IsTarget place) :=
  inferInstanceAs (Decidable (_ ∨ _))

/-- An identifier is not raw, so that it is its own plain name. -/
theorem plainName_of_isIdentifier {name : String} (hname : isIdentifier name) :
    plainName name = name := by
  rw [plainName]
  split
  · rename_i rest heq
    refine absurd ?_ (not_mem_of_isIdentifier (c := '#') hname (by decide))
    rw [heq]
    exact List.mem_cons_of_mem _ List.mem_cons_self
  · rfl

/-- Of the names of ASCII characters those that are not raw are identifiers. -/
theorem isIdentifier_iff_of_isAscii {name : String} (hname : IsIdentifier name)
    (hascii : ∀ c ∈ name.toList, c.toNat < 128) : isIdentifier name ↔ plainName name = name := by
  refine ⟨plainName_of_isIdentifier, fun hplain => ?_⟩
  obtain ⟨c, tail, hc, htail, heq | ⟨heq, -⟩⟩ := hname.1.cases
  · rw [heq, List.forall_mem_cons] at hascii
    rw [isIdentifier, heq, Bool.and_eq_true, List.all_eq_true]
    refine ⟨?_, fun d hd => ?_⟩
    · rw [Text.isIdentStart, if_pos hascii.1] at hc
      rwa [Text.isAlphabetic, if_pos hascii.1, Bool.or_comm]
    · have hd' := htail d hd
      rw [Text.isIdentContinue, if_pos (hascii.2 d hd)] at hd'
      rwa [Text.isAlphanumeric, Text.isAlphabetic, Text.isNumeric, if_pos (hascii.2 d hd),
        if_pos (hascii.2 d hd), Bool.or_comm]
  · have hlength := congrArg (fun s => s.toList.length) hplain
    simp [plainName, heq] at hlength

/-- A file at a place of a module, if it is no target, holds this module exactly if all names on the
way are identifiers. -/
theorem modulePath?_modulePlaces_iff (src : FilePath) {names : List String} {name : String}
    (hnames : ∀ other ∈ names ++ [name], IsIdentifier other) {place : List String}
    (hplace : place ∈ modulePlaces names name) (htarget : ¬ IsTarget place) :
    modulePath? src (place.foldl FilePath.join src) = some (.ofNames (names ++ [name])) ↔
      ∀ other ∈ names ++ [name], isIdentifier other := by
  constructor
  · intro hheld
    obtain ⟨found, hfound, heq⟩ := exists_names_of_modulePath? hheld
    have hsegments : ∀ other ∈ names ++ [name], IsSegment other :=
      fun other hother => (hnames other hother).isSegment
    have hsegments' : ∀ other ∈ found, IsSegment other :=
      fun other hother => isSegment_of_isIdentifier (hfound other hother)
    rwa [(ItemPath.ofNames_inj hsegments hsegments').mp heq]
  · intro hidentifiers
    have hplain : ∀ other ∈ names ++ [name], plainName other = other :=
      fun other hother => plainName_of_isIdentifier (hidentifiers other hother)
    have hdirectories : names.map plainName = names :=
      (List.map_congr_left fun other hother => hplain other (List.mem_append_left _ hother)).trans
        (List.map_id names)
    have hname : plainName name = name := hplain name (by simp)
    have hmod : name ≠ "mod" := by
      rintro rfl
      exact absurd (hnames "mod" (by simp)).2 (by decide)
    rw [modulePlaces, hdirectories, hname] at hplace
    simp only [IsTarget, not_or] at htarget
    obtain ⟨hlib, hmain, hbin⟩ := htarget
    simp only [List.mem_cons, List.not_mem_nil, or_false] at hplace
    rcases hplace with rfl | rfl
    · have htop : ¬ (names = [] ∧ (name = "lib" ∨ name = "main")) := by
        rintro ⟨rfl, rfl | rfl⟩
        · exact hlib rfl
        · exact hmain rfl
      have hfront : names.head? ≠ some "bin" := by
        intro hfront
        rw [List.head?_append, hfront] at hbin
        exact hbin rfl
      rw [modulePath?_sourceFile src hidentifiers hfront,
        moduleNames_eq_append_iff.mpr ⟨hmod, htop⟩]
    · have hsplit : names ++ [name, "mod.rs"] = names ++ [name] ++ ["mod.rs"] := by simp
      have hfront : (names ++ [name]).head? ≠ some "bin" := by
        intro hfront
        rw [hsplit, List.head?_append, hfront] at hbin
        exact hbin rfl
      rw [hsplit, modulePath?_modFile src hidentifiers hfront]

end Files

/-! ## Scopes of files -/

open Files (FilePath isIdentifier modulePath? modulePlaces plainName)

/-- Whether a source has a module item without content, not for tests only, whose file stands at a
place and is no target. The names in its path are such that they can be written in a source. -/
structure Source.DeclaresFile (source : Source) (names : List String) (decl : ModuleDecl)
    (place : List String) : Prop where
  occurs : Occurs source.module source.items (.ofNames names) (.module decl none)
  compiled : isTestOnly decl.attributes = false
  identifiers : ∀ name ∈ names ++ [decl.name], IsIdentifier name
  stands : place ∈ modulePlaces names decl.name
  noTarget : ¬ Files.IsTarget place

/-- A type of a source lies inside the module of the source. -/
theorem Source.module_mem_ancestors {source : Source} (hsource : source.module.InCrate)
    {path : ItemPath} (hpath : path ∈ source.typePaths) : source.module ∈ path.ancestors := by
  obtain ⟨⟨place, type⟩, htype, rfl⟩ := List.mem_map.mp hpath
  have hoccurs := Item.occurs_of_mem_typesOfAll _ _ place type htype
  have hplace := hoccurs.inCrate hsource
  have hinside := (hplace.isInside_join_iff hsource type.isSegment).mpr
    (hoccurs.isUnder_module hsource)
  rw [ItemPath.isInside, Bool.and_eq_true, bne_iff_ne] at hinside
  exact ((hplace.join type.isSegment).mem_ancestors_iff hsource).mpr ⟨hinside.1, hinside.2.symm⟩

/-- Whether the modules and types in a source are named by identifiers. -/
structure Source.NamesTypes (source : Source) : Prop where
  modules : ∀ place decl content, Occurs source.module source.items place (.module decl content) →
    IsIdentifier decl.name
  types : ∀ place decl, Occurs source.module source.items place (.type decl) →
    IsIdentifier decl.name

/-- A path of the crate below its root is read as it is written if its names are identifiers. -/
theorem ItemPath.ofText?_ofNames {names : List String} (hne : names ≠ [])
    (hnames : ∀ name ∈ names, IsIdentifier name) :
    Ty.ofText? (ofNames names).text = some ((ofNames names).written .none) := by
  have hspells := (isLegible_ofNames hne hnames).spellsType Grammar.spellsArgs_none
  rw [String.append_empty] at hspells
  exact hspells.ofText?

/-- In a module of identifiers the path of a type can be read. -/
theorem Source.NamesTypes.ofText?_typePaths {source : Source} (hsource : source.NamesTypes)
    (hmodule : source.module.MadeOf IsIdentifier) {path : ItemPath}
    (hpath : path ∈ source.typePaths) : Ty.ofText? path.text = some (path.written .none) := by
  obtain ⟨⟨place, type⟩, htype, rfl⟩ := List.mem_map.mp hpath
  have hoccurs := Item.occurs_of_mem_typesOfAll _ _ place type htype
  have htypeName := hsource.types place type hoccurs
  obtain ⟨names, hnames, rfl⟩ := hoccurs.madeOf_place hmodule hsource.modules
  show Ty.ofText? ((ItemPath.ofNames names).join type.name).text =
    some (((ItemPath.ofNames names).join type.name).written .none)
  rw [← ItemPath.ofNames_append]
  refine ItemPath.ofText?_ofNames (by simp) fun name hname => ?_
  rcases List.mem_append.mp hname with hname | hname
  · exact hnames name hname
  · rwa [List.mem_singleton.mp hname]

namespace Feed

variable {settings : Settings} {sources : List Source}

/-- Whether a scope is written at a module item, not for tests only, that declares a module. -/
def IsWrittenScope (sources : List Source) (module scope : ItemPath) : Prop :=
  ∃ source ∈ sources, ∃ place decl content,
    Occurs source.module source.items place (.module decl content) ∧
    isTestOnly decl.attributes = false ∧ place.join decl.name = module ∧
    decl.visibility.scope place = scope

/-- The scope of a module that has a module item is the narrowest one that is written at such an
item. The root is a scope of the file by itself, but where it is the narrowest one it is written,
too. -/
theorem exists_narrowest_scope (hsources : ∀ source ∈ sources, source.IsRegular)
    {module written : ItemPath} (hwritten : IsWrittenScope sources module written) :
    ∃ scope, (ofSources settings sources).symbols.scope? module = some scope ∧
      IsWrittenScope sources module scope ∧
      ∀ other, IsWrittenScope sources module other → scope.isUnder other := by
  have hscoped : ∀ declaration ∈ allDeclarations settings sources, declaration.ScopedAbove :=
    scopedAbove_of_mem_allDeclarations hsources
  have hdeclared {other : ItemPath} (hother : IsWrittenScope sources module other) :
      .module module other ∈ allDeclarations settings sources := by
    obtain ⟨source, hsource, place, decl, content, hoccurs, hcompiled, rfl, rfl⟩ := hother
    exact module_mem_allDeclarations_iff.mpr
      (.inr ⟨source, hsource, place, decl, content, hoccurs, hcompiled, rfl, rfl⟩)
  have hconfines {other : ItemPath} (hother : IsWrittenScope sources module other) :
      (ofSources settings sources).symbols.Confines module other :=
    SymbolTable.confines_ofDeclarations settings.externCrates hscoped (hdeclared hother)
  obtain ⟨scope, hscope, hunder⟩ := hconfines hwritten
  refine ⟨scope, hscope, ?_, fun other hother => ?_⟩
  · have hroot (hroot : scope = .root) : IsWrittenScope sources module scope := by
      have hin : written.InCrate := (hscoped _ (hdeclared hwritten)).2.1
      rw [hroot] at hunder ⊢
      rwa [hin.eq_root hunder] at hwritten
    rcases SymbolTable.eq_root_or_mem_of_scope? hscope with hscope | hmem
    · exact hroot hscope
    · rcases module_mem_allDeclarations_iff.mp hmem with ⟨hscope, -⟩ |
        ⟨source, hsource, place, decl, content, hoccurs, hcompiled, hmodule, hscope⟩
      · exact hroot hscope
      · exact ⟨source, hsource, place, decl, content, hoccurs, hcompiled, hmodule.symm,
          hscope.symm⟩
  · obtain ⟨scope', hscope', hother⟩ := hconfines hother
    rw [hscope] at hscope'
    rwa [Option.some.inj hscope']

/-- The generated function is in the scope of the module of each type that it can name. -/
theorem isUnder_scope_of_mem_typePaths {c : Candidate}
    (hc : c ∈ (ofSources settings sources).candidates) (hprivate : c.isPrivate = false)
    {source : Source} (hsource : source.module.InCrate) (hname : c.name ∈ source.typePaths)
    {scope : ItemPath}
    (hscope : (ofSources settings sources).symbols.scope? source.module = some scope) :
    settings.dispatcher.isUnder scope := by
  obtain ⟨-, -, place, type, -, -, rfl⟩ := exists_type_of_mem_candidates hc
  exact (isUnder_scopes_of_candidate hprivate).2 _ (Source.module_mem_ancestors hsource hname) scope
    hscope

/-- The file of a module item holds the module that the item declares exactly if all names on the
way to it are identifiers; if they are ASCII, exactly if none of them is raw. Then the narrowest
scope that is written at an item of the module confines the types in the file, and their paths are
types. -/
theorem modulePath?_of_declaresFile (settings : Settings) {sources : List Source}
    (hsources : ∀ source ∈ sources, source.IsRegular) (src : FilePath) {outer : Source}
    (houter : outer ∈ sources) {names : List String} {decl : ModuleDecl} {place : List String}
    (hfile : outer.DeclaresFile names decl place) :
    let module := (ItemPath.ofNames names).join decl.name
    let held := modulePath? src (place.foldl FilePath.join src)
    (held = some module ↔ ∀ name ∈ names ++ [decl.name], isIdentifier name) ∧
      ((∀ name ∈ names ++ [decl.name], ∀ c ∈ name.toList, c.toNat < 128) →
        (held = some module ↔ ∀ name ∈ names ++ [decl.name], plainName name = name)) ∧
      ∀ inner ∈ sources, held = some inner.module →
        (∀ name ∈ names ++ [decl.name], isIdentifier name) →
        (∃ scope, (ofSources settings sources).symbols.scope? inner.module = some scope ∧
          IsWrittenScope sources module scope ∧
          (∀ other, IsWrittenScope sources module other → scope.isUnder other) ∧
          scope.isUnder (decl.visibility.scope (.ofNames names)) ∧
          ∀ c ∈ (ofSources settings sources).candidates, c.name ∈ inner.typePaths →
            c.isPrivate = false → settings.dispatcher.isUnder scope) ∧
        (inner.NamesTypes →
          ∀ path ∈ inner.typePaths, Ty.ofText? path.text = some (path.written .none)) := by
  intro module held
  have hheld : held = some module ↔ ∀ name ∈ names ++ [decl.name], isIdentifier name := by
    have hiff := Files.modulePath?_modulePlaces_iff src hfile.identifiers hfile.stands
      hfile.noTarget
    rwa [ItemPath.ofNames_append] at hiff
  refine ⟨hheld, fun hascii => hheld.trans ?_, fun inner hinner hplace hidentifiers => ?_⟩
  · exact forall₂_congr fun name hname =>
      Files.isIdentifier_iff_of_isAscii (hfile.identifiers name hname) (hascii name hname)
  have hmodule : inner.module = module := by
    rw [hheld.mpr hidentifiers] at hplace
    exact (Option.some.inj hplace).symm
  refine ⟨?_, fun hnames path hpath => ?_⟩
  · have hwritten : IsWrittenScope sources module (decl.visibility.scope (.ofNames names)) :=
      ⟨outer, houter, _, decl, none, hfile.occurs, hfile.compiled, rfl, rfl⟩
    obtain ⟨scope, hscope, hitem, hnarrow⟩ := exists_narrowest_scope hsources hwritten
    rw [← hmodule] at hscope
    refine ⟨scope, hscope, hitem, hnarrow, hnarrow _ hwritten, fun c hc hname hprivate => ?_⟩
    exact isUnder_scope_of_mem_typePaths hc hprivate (hsources inner hinner).1 hname hscope
  · refine hnames.ofText?_typePaths ⟨names ++ [decl.name], hfile.identifiers, ?_⟩ hpath
    rw [hmodule, ItemPath.ofNames_append]

/-- A private module whose file is visible everywhere: the type in the file is private, as the
generated function is outside of the scope that is written at the module item. -/
theorem modulePath?_declaredTwice :
    let place := ["hos", "kernel", "objects.rs"]
    (∀ source ∈ declaredTwice, source.IsRegular) ∧
      modulePath? ⟨"src"⟩ (place.foldl FilePath.join ⟨"src"⟩) =
        some ⟨"crate::hos::kernel::objects"⟩ ∧
      ∀ c ∈ (ofSources {} declaredTwice).candidates,
        c.name = ⟨"crate::hos::kernel::objects::Event"⟩ → c.isPrivate = true := by
  intro place
  have hregular : ∀ source ∈ declaredTwice, source.IsRegular :=
    fun source hsource => (declaredTwice_restrictsToAncestors source hsource).1
  let decl : ModuleDecl := ⟨[], .inherited, "objects", by decide⟩
  have houter : ⟨⟨"crate::hos::kernel"⟩, [.module decl none]⟩ ∈ declaredTwice :=
    List.mem_cons_self
  have hinner : ⟨⟨"crate::hos::kernel::objects"⟩, [.type event]⟩ ∈ declaredTwice :=
    List.mem_cons_of_mem _ List.mem_cons_self
  have hkernel : ItemPath.ofNames ["hos", "kernel"] = ⟨"crate::hos::kernel"⟩ := by decide
  have hobjects : (ItemPath.ofNames ["hos", "kernel"]).join "objects" =
      ⟨"crate::hos::kernel::objects"⟩ := by decide
  have hfile : Source.DeclaresFile ⟨⟨"crate::hos::kernel"⟩, [.module decl none]⟩
      ["hos", "kernel"] decl place := {
    occurs := by
      rw [hkernel]
      exact .here (List.mem_singleton.mpr rfl)
    compiled := by decide
    identifiers := by decide
    stands := by decide
    noTarget := by decide }
  obtain ⟨hiff, -, hscopes⟩ := modulePath?_of_declaresFile {} hregular ⟨"src"⟩ houter hfile
  have hidentifiers : ∀ name ∈ ["hos", "kernel"] ++ [decl.name], isIdentifier name := by decide
  have hheld := hiff.mpr hidentifiers
  rw [hobjects] at hheld
  refine ⟨hregular, hheld, fun c hc hname => ?_⟩
  obtain ⟨⟨scope, -, -, -, hunder, hpublic⟩, -⟩ := hscopes _ hinner hheld hidentifiers
  rw [← Bool.not_eq_false]
  intro hprivate
  have hin := hpublic c hc (by rw [hname]; decide) hprivate
  exact absurd (ItemPath.isUnder_trans hin hunder) (by decide)

/-- The feed of a crate that is given by the texts of its modules. -/
def feedIn? (texts : List (ItemPath × String)) : Option Feed :=
  (texts.mapM fun (module, text) => Source.ofText? module text).map (ofSources {})

/-- A private module with a raw name, and its file. -/
def rawModule : List (ItemPath × String) := [
  (⟨"crate::other"⟩, "mod r#type;\n"), (⟨"crate::other::type"⟩, "pub struct Svc;\n")]

/-- The file holds another module than the one that is declared. So the service in it counts as
visible to the generated function, which is outside of the scope that is written at the module item,
and its path is no type. -/
theorem scope?_rawModule :
    modulePlaces ["other"] "r#type" = [["other", "type.rs"], ["other", "type", "mod.rs"]] ∧
      modulePath? ⟨"src"⟩ ⟨"src/other/type.rs"⟩ = some ⟨"crate::other::type"⟩ ∧
      (feedIn? rawModule).map (fun feed => (feed.symbols.scope? ⟨"crate::other::r#type"⟩,
        feed.symbols.scope? ⟨"crate::other::type"⟩)) = some (some ⟨"crate::other"⟩, some .root) ∧
      Settings.dispatcher {} = ⟨"crate::hos::services::sm"⟩ ∧
      (feedIn? rawModule).map (·.candidates.map fun c => (c.name.text, c.isPrivate)) =
        some [("crate::other::type::Svc", false)] ∧
      (Ty.ofText? "crate::other::type::Svc").isNone := by
  decide +kernel

end Feed

end ServiceDispatch
