import ServiceDispatch.Proofs.Resolution.Legible

/-!
# Resolved types in other modules

The full path of an item leads to the item from every module, if each module on the way is declared.
A type that resolves in one module is therefore read from its text as a type that resolves to the
same text in every other one.
-/

namespace ServiceDispatch

/-- Whether an import binds a name of a kind, if it binds one, names members by such names, and
names something at all if it is rooted. -/
structure Import.NamedBy (P : String → Prop) (binding : Import) : Prop where
  bound : ∀ name, (binding.pathOf? name).isSome → P name
  members : ∀ name ∈ binding.path.memberNames, P name
  rooted : binding.path.rooted → binding.path.segments ≠ []

namespace SymbolTable

variable {table : SymbolTable} {p : ItemPath}

/-! ## Connected tables -/

/-- Whether a path is a member of a declared module, with an identifier as its name. -/
def IsMember (table : SymbolTable) (p : ItemPath) : Prop :=
  ∃ module name, table.hasModule module ∧ IsIdentifier name ∧ p = module.join name

/-- Whether every module but the root and every item is a member of a declared module, and imports
bind identifiers and name members by identifiers. -/
structure Connected (table : SymbolTable) : Prop where
  modules : ∀ p, table.hasModule p → p = .root ∨ table.IsMember p
  items : ∀ p, table.hasItem p → table.IsMember p
  imports : ∀ i ∈ table.imports, i.binding.NamedBy IsIdentifier

/-- Whether some identifiers lead from the root to a path within any number of steps. -/
def LeadTo (table : SymbolTable) (names : List String) (p : ItemPath) : Prop :=
  (∀ name ∈ names, IsIdentifier name) ∧ p = .ofNames names ∧
    ∀ n, names.foldlM (UsePath.step (table.lookupWithin (n + 1))) .root = some p

/-- One more name leads to a declared member, if it is an identifier. -/
theorem LeadTo.join {names : List String} (hnames : table.LeadTo names p) {name : String}
    (hname : IsIdentifier name) (hdeclares : table.declares p name) :
    table.LeadTo (names ++ [name]) (p.join name) := by
  obtain ⟨hidentifiers, rfl, hsteps⟩ := hnames
  have hlocal : (ItemPath.ofNames names).isCrateLocal :=
    ItemPath.InCrate.isCrateLocal ⟨names, fun name h => (hidentifiers name h).isSegment, rfl⟩
  refine ⟨?_, (ItemPath.ofNames_append names name).symm, fun n => ?_⟩
  · intro other hother
    rcases List.mem_append.mp hother with hother | hother
    · exact hidentifiers other hother
    · rwa [List.mem_singleton.mp hother]
  · rw [List.foldlM_append, hsteps n]
    show (UsePath.step _ _ name).bind _ = _
    rw [UsePath.step, if_pos hlocal, lookupWithin_of_declares hdeclares]
    rfl

/-- The names in the path of a declared module lead to it. The path of a member is longer than that
of its module, so that the recursion ends. -/
theorem Connected.exists_leadTo_module (htable : table.Connected) {p : ItemPath}
    (hp : table.hasModule p) : ∃ names, table.LeadTo names p := by
  rcases htable.modules p hp with rfl | ⟨module, name, hmodule, hname, rfl⟩
  · exact ⟨[], nofun, rfl, fun _ => rfl⟩
  · obtain ⟨names, hnames⟩ := htable.exists_leadTo_module hmodule
    have hdeclares : table.declares module name := by
      rw [declares, hp, Bool.or_true]
    exact ⟨_, hnames.join hname hdeclares⟩
termination_by p.text.length
decreasing_by
  subst_vars
  have hcolons : "::".length = 2 := rfl
  simp only [ItemPath.join, String.length_append]
  omega

/-- The names in the path of a declared item lead to it, and there is one at least. -/
theorem Connected.exists_leadTo_item (htable : table.Connected) (hp : table.hasItem p) :
    ∃ names, names ≠ [] ∧ table.LeadTo names p := by
  obtain ⟨module, name, hmodule, hname, rfl⟩ := htable.items p hp
  obtain ⟨names, hnames⟩ := htable.exists_leadTo_module hmodule
  have hdeclares : table.declares module name := by
    rw [declares, hp, Bool.true_or]
  exact ⟨names ++ [name], by simp, hnames.join hname hdeclares⟩

/-! ## Spared names -/

/-- Whether no module declares or imports a name. -/
structure Spares (table : SymbolTable) (name : String) : Prop where
  items : ∀ p ∈ table.items, p.terminal ≠ name
  modules : ∀ m ∈ table.modules, m.path.terminal ≠ name
  imports : ∀ i ∈ table.imports, i.binding.pathOf? name = none

/-- A name that nothing declares is not declared in any module of the crate. -/
theorem Spares.declares_eq_false {name : String} (hspares : table.Spares name)
    (hname : IsSegment name) {module : ItemPath} (hmodule : module.InCrate) :
    table.declares module name = false := by
  have hterminal := hmodule.terminal_join hname
  rw [declares, Bool.or_eq_false_iff]
  constructor
  · by_contra hitem
    rw [Bool.not_eq_false, hasItem, List.contains_iff_mem] at hitem
    exact hspares.items _ hitem hterminal
  · by_contra hmod
    rw [Bool.not_eq_false, hasModule, scope?, Option.isSome_map, List.find?_isSome] at hmod
    obtain ⟨m, hm, hpath⟩ := hmod
    rw [← beq_iff_eq.mp hpath] at hterminal
    exact hspares.modules m hm hterminal

/-- A name that nothing declares or imports is not found within any number of steps. Only globs
could give it, and the modules that they name are searched only in the crate. -/
theorem Spares.lookupWithin_eq_none {P : String → Prop} {name : String}
    (hspares : table.Spares name) (hname : IsSegment name) (htable : table.WellNamed P)
    (hP : ∀ name, P name → ':' ∉ name.toList) (n : Nat) {module : ItemPath}
    (hmodule : module.InCrate) : table.lookupWithin n module name = none := by
  induction n generalizing module with
  | zero => rfl
  | succ n ih =>
    have hnamed : (table.importsOf module).findSome? (Import.pathOf? name) = none := by
      refine List.findSome?_eq_none_iff.mpr fun binding hbinding => ?_
      obtain ⟨i, hi, rfl⟩ := exists_import_of_mem_importsOf hbinding
      exact hspares.imports i hi
    rw [lookupWithin_succ, lookupBy_eq, hspares.declares_eq_false hname hmodule, if_neg
      Bool.false_ne_true, hnamed]
    refine List.findSome?_eq_none_iff.mpr fun binding hbinding => ?_
    cases binding with
    | named bound path => rfl
    | glob path =>
      rw [globMember?]
      cases htarget : path.target? (table.lookupWithin (n - 1)) module with
      | none => rfl
      | some target =>
        have hanchored := htable.target?_anchored hP (htable.lookupWithin_anchors hP (n - 1))
          hmodule hbinding htarget
        show (if target.isCrateLocal then table.lookupWithin n target name else none) = none
        by_cases hlocal : target.isCrateLocal
        · rw [if_pos hlocal, ih (hanchored.inCrate hlocal)]
        · rw [if_neg hlocal]

/-! ## Tables of identifiers -/

/-- Whether all names in a table are identifiers: those of modules and of items, which are below the
root, and those that imports bind and by which they name members. -/
structure UsesIdentifiers (table : SymbolTable) : Prop where
  items : ∀ p ∈ table.items, ∃ names, names ≠ [] ∧ (∀ name ∈ names, IsIdentifier name) ∧
    p = .ofNames names
  modules : ∀ m ∈ table.modules, ∃ names, (∀ name ∈ names, IsIdentifier name) ∧
    m.path = .ofNames names
  imports : ∀ i ∈ table.imports, i.binding.NamedBy IsIdentifier

/-- The modules of a table are declared, each by its own path. -/
theorem hasModule_of_mem {m : ModuleScope} (hm : m ∈ table.modules) : table.hasModule m.path := by
  rw [hasModule, scope?, Option.isSome_map, List.find?_isSome]
  exact ⟨m, hm, beq_self_eq_true m.path⟩

/-- The names in a connected table are identifiers, as names lead to everything that it declares. -/
theorem Connected.usesIdentifiers (htable : table.Connected) : table.UsesIdentifiers where
  items := fun p hp => by
    obtain ⟨names, hne, hidentifiers, rfl, -⟩ :=
      htable.exists_leadTo_item (List.contains_iff_mem.mpr hp)
    exact ⟨names, hne, hidentifiers, rfl⟩
  modules := fun m hm => by
    obtain ⟨names, hidentifiers, hpath, -⟩ := htable.exists_leadTo_module (hasModule_of_mem hm)
    exact ⟨names, hidentifiers, hpath⟩
  imports := htable.imports

namespace UsesIdentifiers

/-- What a table of identifiers declares lies in the crate. -/
theorem wellNamed (htable : table.UsesIdentifiers) : table.WellNamed IsIdentifier where
  items := by
    intro p hp _
    obtain ⟨names, -, hidentifiers, rfl⟩ := htable.items p hp
    exact ⟨names, fun name h => (hidentifiers name h).isSegment, rfl⟩
  modules := by
    intro m hm _
    obtain ⟨names, hidentifiers, hpath⟩ := htable.modules m hm
    exact ⟨names, fun name h => (hidentifiers name h).isSegment, hpath⟩
  imported := fun i hi => (htable.imports i hi).members
  rooted := fun i hi hrooted hempty => absurd hempty ((htable.imports i hi).rooted hrooted)

/-- The last segment of a path of identifiers is one of them, or the root. -/
theorem terminal_ofNames {names : List String} (hnames : ∀ name ∈ names, IsIdentifier name) :
    (ItemPath.ofNames names).terminal = "crate" ∨
      IsIdentifier (ItemPath.ofNames names).terminal := by
  rw [ItemPath.terminal, ItemPath.segments_ofNames fun name h => (hnames name h).isSegment]
  rcases List.eq_nil_or_concat' names with rfl | ⟨front, name, rfl⟩
  · exact .inl rfl
  · right
    rw [← List.cons_append, List.getLast?_append]
    exact hnames name (by simp)

/-- A name that is no identifier is neither declared nor imported. -/
theorem spares (htable : table.UsesIdentifiers) {name : String} (hcrate : name ≠ "crate")
    (hname : ¬ IsIdentifier name) : table.Spares name where
  items := by
    rintro p hp rfl
    obtain ⟨names, -, hidentifiers, rfl⟩ := htable.items p hp
    exact (terminal_ofNames hidentifiers).elim hcrate hname
  modules := by
    rintro m hm rfl
    obtain ⟨names, hidentifiers, hpath⟩ := htable.modules m hm
    rw [hpath] at hcrate hname
    exact (terminal_ofNames hidentifiers).elim hcrate hname
  imports := fun i hi => by
    by_contra hbound
    exact hname ((htable.imports i hi).bound name (Option.isSome_iff_ne_none.mpr hbound))

/-- What a path of identifiers in a type means is a declared item, a path of identifiers in another
crate, or a primitive type whose name alone was written and is not found. -/
theorem cases_of_resolveBase (htable : table.UsesIdentifiers) {scope : ItemPath}
    (hscope : scope.InCrate) {whole : String} {rooted : Bool} {segments : List Segment}
    (hnames : ∀ name ∈ UsePath.memberNames ⟨rooted, segments.map Segment.name⟩, IsIdentifier name)
    (hp : table.resolveBase scope whole rooted segments = .ok p) :
    table.hasItem p ∨ p.ExternalBy IsIdentifier ∨ rooted = false ∧ ∃ name ∈ primitiveTypes,
      segments.map Segment.name = [name] ∧ p = ⟨name⟩ ∧ table.lookup scope name = none := by
  obtain ⟨hmeaning, hitem⟩ := resolveBase_eq_ok hp
  have hcolon : ∀ name, IsIdentifier name → ':' ∉ name.toList := fun _ h => h.isSegment.2
  have hanchors := htable.wellNamed.lookupWithin_anchors hcolon maxSteps
  have hsuper : table.Spares "super" := htable.spares (by decide) (by decide)
  have hprelude : ∀ p ∈ preludeTypes.map Prod.snd, p.ExternalBy IsIdentifier := by
    have hnames : ∀ p ∈ preludeTypes.map Prod.snd, ∀ name ∈ p.segments, IsIdentifier name := by
      decide
    exact fun p hp => externalBy_of_mem_preludeTypes hp (hnames p hp)
  rcases resolveNamesBy_anchored hanchors hcolon (fun _ => id)
      (.inr fun module hmodule =>
        hsuper.lookupWithin_eq_none (by decide) htable.wellNamed hcolon maxSteps hmodule)
      hprelude hscope hnames hmeaning with hanchored | hprimitive
  · by_cases hlocal : p.isCrateLocal
    · exact .inl (hitem hlocal)
    · exact .inr (.inl (hanchored.externalBy hlocal))
  · obtain ⟨hrooted, name, hname, hsegments, rfl, -, hfind⟩ := hprimitive
    exact .inr (.inr ⟨hrooted, name, hname, hsegments, rfl, hfind⟩)

/-- What a path of identifiers in a type means can be read. -/
theorem exists_isLegible_of_resolveBase (htable : table.UsesIdentifiers) {scope : ItemPath}
    (hscope : scope.InCrate) {whole : String} {rooted : Bool} {segments : List Segment}
    (hnames : ∀ name ∈ UsePath.memberNames ⟨rooted, segments.map Segment.name⟩, IsIdentifier name)
    (hp : table.resolveBase scope whole rooted segments = .ok p) :
    ∃ first names, p.IsLegible first names := by
  rcases htable.cases_of_resolveBase hscope hnames hp with hitem | hexternal |
    ⟨-, name, hname, -, rfl, -⟩
  · obtain ⟨names, hne, hidentifiers, rfl⟩ := htable.items p (List.contains_iff_mem.mp hitem)
    exact ⟨_, _, ItemPath.isLegible_ofNames hne hidentifiers⟩
  · obtain ⟨names, hne, hidentifiers, rfl⟩ := hexternal
    obtain ⟨first, names, rfl⟩ := List.exists_cons_of_ne_nil hne
    exact ⟨_, _, ItemPath.isLegible_external hidentifiers⟩
  · exact ⟨_, _, ItemPath.isLegible_of_mem_primitiveTypes hname⟩

end UsesIdentifiers

/-! ## Steady paths -/

/-- Whether a path can be read and keeps its meaning in all modules of the crate. -/
def IsSteady (table : SymbolTable) (p : ItemPath) : Prop :=
  (∃ first names, p.IsLegible first names) ∧
    ∀ scope : ItemPath, scope.InCrate → ResolvedTy.Keeps (table.resolveBase scope) p

/-- A path means what its names mean, if that is an item or lies in another crate. -/
theorem resolveBase_ofNames {scope : ItemPath} {rooted : Bool} {names : List String}
    (hnames : table.resolveNames scope rooted names = .ok p)
    (hitem : p.isCrateLocal → table.hasItem p) (whole : String) (args : PathArgs) :
    table.resolveBase scope whole rooted (Segment.ofNames args names) = .ok p := by
  have hmap := Segment.map_name_ofNames args names
  have hallowed : (p.isCrateLocal && !table.hasItem p) = false := by
    cases hlocal : p.isCrateLocal with
    | false => rfl
    | true => rw [hitem hlocal, Bool.not_true, Bool.and_false]
  unfold resolveBase
  rw [Segment.any_dropLast_ofNames, hmap, hnames]
  show (if (p.isCrateLocal && !table.hasItem p) = true then _ else _) = _
  rw [hallowed]
  rfl

/-- A declared item is steady: its full path leads to it from the root. -/
theorem Connected.isSteady_of_item (htable : table.Connected) (hp : table.hasItem p) :
    table.IsSteady p := by
  obtain ⟨names, hne, hidentifiers, rfl, hsteps⟩ := htable.exists_leadTo_item hp
  have hlegible := ItemPath.isLegible_ofNames hne hidentifiers
  refine ⟨⟨_, _, hlegible⟩, fun scope hscope => ⟨?_, fun whole args => ?_⟩⟩
  · rw [hlegible.segments]
    exact List.cons_ne_nil _ _
  · have hrooted : (ItemPath.ofNames names).isRooted = false := by
      rw [ItemPath.isRooted, ItemPath.toList_ofNames]
      rfl
    refine resolveBase_ofNames ?_ (fun _ => hp) whole args
    rw [hlegible.segments, hrooted]
    show descend table.lookup .root names = _
    exact descend_eq_ok.mpr (hsteps 16)

/-- A path of identifiers in another crate is steady: it is rooted. -/
theorem isSteady_of_externalBy (hp : p.ExternalBy IsIdentifier) : table.IsSteady p := by
  have hrooted := hp.isRooted
  obtain ⟨names, hne, hnames, rfl⟩ := hp
  obtain ⟨first, names, rfl⟩ := List.exists_cons_of_ne_nil hne
  have hlegible := ItemPath.isLegible_external hnames
  refine ⟨⟨_, _, hlegible⟩, fun scope hscope => ⟨?_, fun whole args => ?_⟩⟩
  · rw [hlegible.segments]
    exact List.cons_ne_nil _ _
  · refine resolveBase_ofNames ?_ (fun hlocal => ?_) whole args
    · rw [hlegible.segments, hrooted]
      rfl
    · rw [ItemPath.isCrateLocal_external] at hlocal
      exact nomatch hlocal

/-- A primitive type is steady if nothing else has its name. -/
theorem Connected.isSteady_of_primitive (htable : table.Connected) {name : String}
    (hname : name ∈ primitiveTypes) (hspares : table.Spares name) : table.IsSteady ⟨name⟩ := by
  have hlegible := ItemPath.isLegible_of_mem_primitiveTypes hname
  have hnot : ∀ name ∈ primitiveTypes, IsSegment name ∧ IsPlainName name ∧
      (ItemPath.mk name).isRooted = false ∧ (ItemPath.mk name).isCrateLocal = false := by decide
  obtain ⟨hsegment, hplain, hrooted, hlocal⟩ := hnot name hname
  refine ⟨⟨_, _, hlegible⟩, fun scope hscope => ⟨?_, fun whole args => ?_⟩⟩
  · rw [hlegible.segments]
    exact List.cons_ne_nil _ _
  · refine resolveBase_ofNames ?_ (fun h => ?_) whole args
    · have hfind : table.lookup scope name = none :=
        hspares.lookupWithin_eq_none hsegment htable.usesIdentifiers.wellNamed
          (fun _ h => h.isSegment.2) maxSteps hscope
      rw [hlegible.segments, hrooted, resolveNames, resolveNamesBy_of_unknown hplain hfind]
      exact wellKnown_of_mem_primitiveTypes hname
    · rw [hlocal] at h
      exact nomatch h

/-- What a path of identifiers in a type means is steady. -/
theorem Connected.isSteady_of_resolveBase (htable : table.Connected)
    (hprimitive : ∀ name ∈ primitiveTypes, table.Spares name) {scope : ItemPath}
    (hscope : scope.InCrate) {whole : String} {rooted : Bool} {segments : List Segment}
    (hnames : ∀ name ∈ UsePath.memberNames ⟨rooted, segments.map Segment.name⟩, IsIdentifier name)
    (hp : table.resolveBase scope whole rooted segments = .ok p) : table.IsSteady p := by
  rcases htable.usesIdentifiers.cases_of_resolveBase hscope hnames hp with hitem | hexternal |
    ⟨-, name, hname, -, rfl, -⟩
  · exact htable.isSteady_of_item hitem
  · exact isSteady_of_externalBy hexternal
  · exact htable.isSteady_of_primitive hname (hprimitive name hname)

/-! ## Types -/

end SymbolTable

/-- Whether a part of a type can be read again: the names of members in a path are identifiers, and
the printed length of an array or constant spells it. -/
def TyPart.IsLegible : TyPart → Prop
  | .path q => ∀ name ∈ q.memberNames, IsIdentifier name
  | .length own => Grammar.SpellsLength (Token.printAll own) own
  | .const value =>
    Grammar.Spells Grammar.BeginsArg Grammar.argAt (Token.printAll value) (.const value)

namespace SymbolTable

variable {table : SymbolTable}

/-- What a type that can be read resolves to can be read part by part. -/
theorem UsesIdentifiers.isLegible_of_mem_parts (htable : table.UsesIdentifiers) {scope : ItemPath}
    (hscope : scope.InCrate) {t : Ty} (ht : ∀ part ∈ t.parts, part.IsLegible) {u : ResolvedTy}
    (hu : ResolvedTy.ofTy (table.resolveBase scope) t = .ok u) :
    ∀ part ∈ u.parts, part.IsLegible := by
  intro part hpart
  have hcomes := ResolvedTy.comesFrom_of_ofTy t u hu part hpart
  cases part with
  | path p =>
    obtain ⟨whole, rooted, segments, hbase, hmem⟩ := hcomes
    exact htable.exists_isLegible_of_resolveBase hscope (ht _ hmem) hbase
  | length own => exact ht _ hcomes
  | const value => exact ht _ hcomes

/-- A type that can be read resolves to a text that can be read. -/
theorem Connected.exists_spellsType (htable : table.Connected) {scope : ItemPath}
    (hscope : scope.InCrate) {t : Ty} (ht : ∀ part ∈ t.parts, part.IsLegible) {r : String}
    (hr : table.resolveTy scope t = .ok r) : ∃ type, Grammar.SpellsType r type := by
  rw [resolveTy_eq] at hr
  obtain ⟨u, hu, rfl⟩ := Results.map_eq_ok_iff.mp hr
  exact ⟨_, u.spellsType_text (htable.usesIdentifiers.isLegible_of_mem_parts hscope ht hu)⟩

/-- A type that resolves in one module is read from its text as a type that resolves to the same
text in every other one. -/
theorem Connected.resolveTy_written (htable : table.Connected)
    (hprimitive : ∀ name ∈ primitiveTypes, table.Spares name) {scope : ItemPath}
    (hscope : scope.InCrate) {t : Ty} (ht : ∀ part ∈ t.parts, part.IsLegible) {r : String}
    (hr : table.resolveTy scope t = .ok r) :
    ∃ t', Ty.ofText? r = some t' ∧
      ∀ scope' : ItemPath, scope'.InCrate → table.resolveTy scope' t' = .ok r := by
  rw [resolveTy_eq] at hr
  obtain ⟨u, hu, rfl⟩ := Results.map_eq_ok_iff.mp hr
  have hparts := ResolvedTy.comesFrom_of_ofTy t u hu
  have hsteady : ∀ p, .path p ∈ u.parts → table.IsSteady p := by
    intro p hp
    obtain ⟨whole, rooted, segments, hbase, hmem⟩ := hparts _ hp
    exact htable.isSteady_of_resolveBase hprimitive hscope (ht _ hmem) hbase
  have hlegible := htable.usesIdentifiers.isLegible_of_mem_parts hscope ht hu
  refine ⟨u.written, (ResolvedTy.spellsType_text u hlegible).ofText?, fun scope' hscope' => ?_⟩
  rw [resolveTy_eq, ResolvedTy.ofTy_written u fun p hp => (hsteady p hp).2 scope' hscope']
  rfl

end SymbolTable

end ServiceDispatch
