import ServiceDispatch.Proofs.Lookup.Limit
import ServiceDispatch.Proofs.Soundness.CratePath

/-!
# Anchors of paths

A name that is looked up in a module of the crate leads to a path of the crate or to an external
one, however many imports lie between.
-/

namespace ServiceDispatch

namespace ItemPath

/-! ## External paths -/

/-- Whether a path begins with the separator. -/
def isRooted (p : ItemPath) : Bool := "::".toList.isPrefixOf p.text.toList

/-- The characters of an external path: two colons in front of each of its names. -/
theorem toList_external {names : List String} (hnames : names ≠ []) :
    (external names).text.toList = names.flatMap fun name => ':' :: ':' :: name.toList := by
  have htext : (external names).text.toList =
      ':' :: ':' :: "::".toList.intercalate (names.map String.toList) := by
    simp [external, String.toList_intercalate]
  rw [htext]
  clear htext
  induction names with
  | nil => exact absurd rfl hnames
  | cons name names ih =>
    cases names with
    | nil => simp [List.intercalate]
    | cons next rest =>
      have hrest := ih (List.cons_ne_nil next rest)
      rw [List.flatMap_cons, ← hrest]
      simp [List.intercalate]

/-- One more name is a member of the path of the others. -/
theorem external_append {names : List String} (hnames : names ≠ []) (name : String) :
    external (names ++ [name]) = (external names).join name := by
  have htext : (external (names ++ [name])).text = ((external names).join name).text := by
    rw [← String.toList_inj, toList_external (by simp), List.flatMap_append, join]
    simp [toList_external hnames]
  exact congrArg ItemPath.mk htext

/-- An external path of one name has no parent, so that no step up leads out of a crate. -/
theorem parent?_external_singleton {name : String} (hname : ':' ∉ name.toList) :
    (external [name]).parent? = none := by
  have htext : (external [name]).text.toList = [] ++ ':' :: ':' :: name.toList := by
    rw [toList_external (List.cons_ne_nil name [])]
    simp
  rw [parent?, htext, beforeLastColons_append hname]

/-- Whether a path is an external path of names of a kind. -/
def ExternalBy (P : String → Prop) (p : ItemPath) : Prop :=
  ∃ names, names ≠ [] ∧ (∀ name ∈ names, P name) ∧ p = external names

variable {P Q : String → Prop} {p q : ItemPath}

/-- An external path begins with the separator. -/
theorem ExternalBy.isRooted (hp : p.ExternalBy P) : p.isRooted := by
  obtain ⟨names, -, -, rfl⟩ := hp
  simp [ItemPath.isRooted, external]

/-- An external path is one of more kinds of names. -/
theorem ExternalBy.mono (hPQ : ∀ name, P name → Q name) (hp : p.ExternalBy P) :
    p.ExternalBy Q := by
  obtain ⟨names, hne, hnames, rfl⟩ := hp
  exact ⟨names, hne, fun name hname => hPQ name (hnames name hname), rfl⟩

/-- One more name of the kind makes an external path of such names. -/
theorem ExternalBy.join (hp : p.ExternalBy P) {name : String} (hname : P name) :
    (p.join name).ExternalBy P := by
  obtain ⟨names, hne, hnames, rfl⟩ := hp
  have hall := List.forall_mem_append.mpr ⟨hnames, List.forall_mem_singleton.mpr hname⟩
  exact ⟨names ++ [name], by simp, hall, (external_append hne name).symm⟩

/-- The parent of an external path is one, if its names are no paths themselves. -/
theorem ExternalBy.parent? (hP : ∀ name, P name → ':' ∉ name.toList) (hp : p.ExternalBy P)
    (hparent : p.parent? = some q) : q.ExternalBy P := by
  obtain ⟨names, hne, hnames, rfl⟩ := hp
  obtain ⟨front, name, rfl⟩ := (List.eq_nil_or_concat' names).resolve_left hne
  have hname : ':' ∉ name.toList := hP name (hnames name (by simp))
  by_cases hfront : front = []
  · rw [hfront, List.nil_append, parent?_external_singleton hname] at hparent
    exact nomatch hparent
  · have htext : (external front).text.toList ≠ [] := by
      rw [external, String.toList_append]
      exact List.append_ne_nil_of_left_ne_nil (by decide) _
    rw [external_append hfront, parent?_join htext hname] at hparent
    obtain rfl := Option.some.inj hparent
    exact ⟨front, hfront, fun other hother => hnames other (List.mem_append_left _ hother), rfl⟩

/-! ## Anchored paths -/

/-- A path of the crate starts at its root, so that it is no external one. -/
theorem InCrate.isCrateLocal (hp : p.InCrate) : p.isCrateLocal := by
  obtain ⟨names, -, rfl⟩ := hp
  cases names with
  | nil => rfl
  | cons name names =>
    rw [ItemPath.isCrateLocal, toList_ofNames]
    simp

/-- A member of a path that starts at the root does so too. -/
theorem isCrateLocal_join (hp : p.isCrateLocal) (name : String) : (p.join name).isCrateLocal := by
  rw [isCrateLocal, Bool.or_eq_true, beq_iff_eq] at hp
  rw [isCrateLocal, Bool.or_eq_true, join]
  right
  rw [List.isPrefixOf_iff_prefix, String.toList_append, String.toList_append]
  rcases hp with htext | hprefix
  · rw [htext]
    exact ⟨name.toList, rfl⟩
  · rw [List.append_assoc]
    exact (List.isPrefixOf_iff_prefix.mp hprefix).trans (List.prefix_append _ _)

/-- The parent of a path of the crate is one. -/
theorem InCrate.parent? (hp : p.InCrate) (hparent : p.parent? = some q) : q.InCrate := by
  obtain ⟨names, hnames, rfl⟩ := hp
  rcases List.eq_nil_or_concat' names with rfl | ⟨front, name, rfl⟩
  · rw [show (ofNames []).parent? = none from parent?_root] at hparent
    exact nomatch hparent
  · rw [parent?_ofNames (hnames name (by simp))] at hparent
    obtain rfl := Option.some.inj hparent
    exact ⟨front, fun other hother => hnames other (List.mem_append_left _ hother), rfl⟩

/-- Whether a path lies in the crate or is an external path of names of a kind. -/
def Anchored (P : String → Prop) (p : ItemPath) : Prop := p.InCrate ∨ p.ExternalBy P

/-- An anchored path is anchored for more kinds of names. -/
theorem Anchored.mono (hPQ : ∀ name, P name → Q name) (hp : p.Anchored P) : p.Anchored Q :=
  hp.imp_right (·.mono hPQ)

/-- An anchored path that starts at the root lies in the crate. -/
theorem Anchored.inCrate (hp : p.Anchored P) (hlocal : p.isCrateLocal) : p.InCrate := by
  rcases hp with hcrate | ⟨names, -, -, rfl⟩
  · exact hcrate
  · rw [isCrateLocal_external] at hlocal
    exact nomatch hlocal

/-- An anchored path that does not start at the root is external. -/
theorem Anchored.externalBy (hp : p.Anchored P) (hlocal : ¬ p.isCrateLocal) : p.ExternalBy P :=
  hp.resolve_left fun hcrate => hlocal hcrate.isCrateLocal

/-- The parent of an anchored path is anchored, if names are no paths themselves. -/
theorem Anchored.parent? (hP : ∀ name, P name → ':' ∉ name.toList) (hp : p.Anchored P)
    (hparent : p.parent? = some q) : q.Anchored P :=
  hp.imp (·.parent? hparent) (·.parent? hP hparent)

end ItemPath

/-! ## Anchored lookups -/

/-- Whether all answers for names in modules of the crate are anchored. -/
def Finder.Anchors (P : String → Prop) (find : Finder) : Prop :=
  ∀ module name p, module.InCrate → find module name = some p → p.Anchored P

variable {P Q : String → Prop} {find follow : Finder}

namespace UsePath

/-- Path steps from an anchored path lead to one: each is a member, a step up, or what a lookup
finds. -/
theorem foldlM_step_anchored (hfind : find.Anchors P) (hPQ : ∀ name, P name → Q name)
    {names : List String} (hnames : ∀ name ∈ names, Q name) {base p : ItemPath}
    (hbase : base.Anchored Q) (hsteps : names.foldlM (step find) base = some p) :
    p.Anchored Q := by
  induction names generalizing base with
  | nil =>
    obtain rfl := Option.some.inj hsteps
    exact hbase
  | cons name names ih =>
    obtain ⟨hname, hrest⟩ := List.forall_mem_cons.mp hnames
    rw [List.foldlM_cons] at hsteps
    obtain ⟨next, hnext, hsteps⟩ := Option.bind_eq_some_iff.mp hsteps
    refine ih hrest ?_ hsteps
    unfold step at hnext
    by_cases hlocal : base.isCrateLocal
    · rw [if_pos hlocal] at hnext
      exact (hfind base name next (hbase.inCrate hlocal) hnext).mono hPQ
    · rw [if_neg hlocal] at hnext
      obtain rfl := Option.some.inj hnext
      exact .inr ((hbase.externalBy hlocal).join hname)

/-- Going up from an anchored path leads to one, and leaves the names after each `super`. -/
theorem ascend_anchored (hP : ∀ name, P name → ':' ∉ name.toList) {names : List String}
    {base : ItemPath} (hbase : base.Anchored P) {up : ItemPath × List String}
    (hup : ascend base names = some up) :
    up.1.Anchored P ∧ up.2 = names.dropWhile (· == "super") := by
  induction names generalizing base with
  | nil =>
    obtain rfl := Option.some.inj hup
    exact ⟨hbase, rfl⟩
  | cons name names ih =>
    unfold ascend at hup
    split at hup
    · rename_i heq
      obtain ⟨rfl, rfl⟩ := List.cons.inj heq
      obtain ⟨parent, hparent, hup⟩ := Option.bind_eq_some_iff.mp hup
      exact ih (hbase.parent? hP hparent) hup
    · rename_i hother
      obtain rfl := Option.some.inj hup
      have hname : (name == "super") = false :=
        beq_eq_false_iff_ne.mpr fun heq => hother names (congrArg (· :: names) heq)
      rw [List.dropWhile_cons, hname]
      exact ⟨hbase, rfl⟩

/-- The names of a path after the words `crate`, `self` and `super` at its front. -/
def memberNames (path : UsePath) : List String :=
  if path.rooted then path.segments
  else
    match path.segments with
    | "crate" :: rest => rest.dropWhile (· == "super")
    | "self" :: rest => rest.dropWhile (· == "super")
    | "super" :: rest => rest.dropWhile (· == "super")
    | names => names

/-- After another first name all names are those of members. -/
theorem memberNames_of_plain {first : String} (hplain : IsPlainName first) (rest : List String) :
    memberNames ⟨false, first :: rest⟩ = first :: rest := by
  obtain ⟨hcrate, hself, hsuper⟩ := hplain
  unfold memberNames
  simp only [Bool.false_eq_true, if_false]
  split
  · rename_i heq
    exact absurd (List.cons.inj heq).1 hcrate
  · rename_i heq
    exact absurd (List.cons.inj heq).1 hself
  · rename_i heq
    exact absurd (List.cons.inj heq).1 hsuper
  · rfl

/-- An import path in a module of the crate leads to an anchored path. No names behind a root are
written like one empty name, which has to be allowed then. -/
theorem target?_anchored (hfind : find.Anchors P) (hP : ∀ name, P name → ':' ∉ name.toList)
    {path : UsePath} (hnames : ∀ name ∈ path.memberNames, P name)
    (hempty : path.rooted → path.segments = [] → P "") {module p : ItemPath}
    (hmodule : module.InCrate) (htarget : path.target? find module = some p) : p.Anchored P := by
  have hrelative {base : ItemPath} {names : List String} (hbase : base.Anchored P)
      (hnames : ∀ name ∈ names.dropWhile (· == "super"), P name)
      (h : ((ascend base names).bind fun up => up.2.foldlM (step find) up.1) = some p) :
      p.Anchored P := by
    obtain ⟨up, hup, hsteps⟩ := Option.bind_eq_some_iff.mp h
    obtain ⟨hanchored, hrest⟩ := ascend_anchored hP hbase hup
    rw [hrest] at hsteps
    exact foldlM_step_anchored hfind (fun _ => id) hnames hanchored hsteps
  obtain ⟨rooted, segments⟩ := path
  unfold target? at htarget
  cases rooted with
  | true =>
    obtain rfl := Option.some.inj htarget
    right
    by_cases hsegments : segments = []
    · subst hsegments
      exact ⟨[""], by simp, by simpa using hempty rfl rfl, rfl⟩
    · exact ⟨segments, hsegments, hnames, rfl⟩
  | false =>
    simp only [Bool.false_eq_true, if_false] at htarget
    split at htarget
    · exact nomatch htarget
    · exact hrelative (.inl ItemPath.inCrate_root) hnames htarget
    · exact hrelative (.inl hmodule) hnames htarget
    · obtain ⟨parent, hparent, hrest⟩ := Option.bind_eq_some_iff.mp htarget
      exact hrelative (.inl (hmodule.parent? hparent)) hnames hrest
    · rename_i first rest hcrate hself hsuper
      rw [memberNames_of_plain ⟨hcrate, hself, hsuper⟩] at hnames
      cases hfirst : find module first with
      | some base =>
        rw [hfirst] at htarget
        refine hrelative (hfind module first base hmodule hfirst) ?_ htarget
        intro name hname
        exact hnames name (List.mem_cons_of_mem _ ((List.dropWhile_suffix _).subset hname))
      | none =>
        rw [hfirst] at htarget
        obtain rfl := Option.some.inj htarget
        exact .inr ⟨first :: rest, List.cons_ne_nil _ _, hnames, rfl⟩

end UsePath

/-- The path of an import. -/
def Import.path : Import → UsePath
  | .named _ path => path
  | .glob path => path

namespace SymbolTable

variable {table : SymbolTable}

/-- Whether what a table declares lies in the crate, so far as it starts at the root, and the names
of members in import paths are of a kind. -/
structure WellNamed (P : String → Prop) (table : SymbolTable) : Prop where
  items : ∀ p ∈ table.items, p.isCrateLocal → p.InCrate
  modules : ∀ m ∈ table.modules, m.path.isCrateLocal → m.path.InCrate
  imported : ∀ i ∈ table.imports, ∀ name ∈ i.binding.path.memberNames, P name
  /-- A rooted path without names is one empty name. -/
  rooted : ∀ i ∈ table.imports, i.binding.path.rooted → i.binding.path.segments = [] → P ""

/-- What is declared under a name in a module of the crate lies in the crate. -/
theorem WellNamed.inCrate_of_declares (htable : table.WellNamed P) {module : ItemPath}
    {name : String} (hmodule : module.InCrate) (hname : table.declares module name) :
    (module.join name).InCrate := by
  have hlocal := ItemPath.isCrateLocal_join hmodule.isCrateLocal name
  rw [declares, Bool.or_eq_true] at hname
  rcases hname with hitem | hmod
  · exact htable.items _ (List.contains_iff_mem.mp hitem) hlocal
  · obtain ⟨scope, hscope⟩ := Option.isSome_iff_exists.mp hmod
    obtain ⟨m, hm, -⟩ := Option.map_eq_some_iff.mp hscope
    have hfound := List.find?_some hm
    have hpath : m.path = module.join name := beq_iff_eq.mp hfound
    rw [← hpath] at hlocal ⊢
    exact htable.modules m (List.mem_of_find?_eq_some hm) hlocal

/-- The bindings of a module are those of imports in the table. -/
theorem exists_import_of_mem_importsOf {module : ItemPath} {binding : Import}
    (hbinding : binding ∈ table.importsOf module) : ∃ i ∈ table.imports, i.binding = binding := by
  obtain ⟨i, hi, hib⟩ := List.mem_map.mp hbinding
  exact ⟨i, List.mem_of_mem_filter hi, hib⟩

/-- A path imported into a module of the crate leads to an anchored path. -/
theorem WellNamed.target?_anchored (htable : table.WellNamed P)
    (hP : ∀ name, P name → ':' ∉ name.toList) (hfind : find.Anchors P) {module p : ItemPath}
    (hmodule : module.InCrate) {binding : Import} (hbinding : binding ∈ table.importsOf module)
    (htarget : binding.path.target? find module = some p) : p.Anchored P := by
  obtain ⟨i, hi, rfl⟩ := exists_import_of_mem_importsOf hbinding
  exact UsePath.target?_anchored hfind hP (htable.imported i hi) (htable.rooted i hi) hmodule
    htarget

/-- If the names in import paths and in glob targets lead to anchored paths, then all names do. -/
theorem lookupBy_anchors (htable : table.WellNamed P) (hP : ∀ name, P name → ':' ∉ name.toList)
    (hfind : find.Anchors P) (hfollow : follow.Anchors P) :
    (table.lookupBy find follow).Anchors P := by
  intro module name p hmodule hp
  rw [lookupBy_eq] at hp
  split at hp
  · rename_i hdeclares
    obtain rfl := Option.some.inj hp
    exact .inl (htable.inCrate_of_declares hmodule hdeclares)
  · split at hp
    · rename_i path hpath
      obtain ⟨binding, hbinding, hnamed⟩ := List.exists_of_findSome?_eq_some hpath
      cases binding with
      | named bound path' =>
        rw [Import.pathOf?] at hnamed
        split at hnamed
        · obtain rfl := Option.some.inj hnamed
          exact htable.target?_anchored hP hfind hmodule hbinding hp
        · cases hnamed
      | glob path' => cases hnamed
    · obtain ⟨binding, hbinding, hmember⟩ := List.exists_of_findSome?_eq_some hp
      cases binding with
      | named bound path => cases hmember
      | glob path =>
        obtain ⟨target, htarget, hmember⟩ := Option.bind_eq_some_iff.mp hmember
        have hanchored := htable.target?_anchored hP hfind hmodule hbinding htarget
        split at hmember
        · rename_i hlocal
          exact hfollow target name p (hanchored.inCrate hlocal) hmember
        · cases hmember

/-- Names lead to anchored paths within any number of steps. -/
theorem WellNamed.lookupWithin_anchors (htable : table.WellNamed P)
    (hP : ∀ name, P name → ':' ∉ name.toList) (n : Nat) : (table.lookupWithin n).Anchors P := by
  induction n using Nat.strongRecOn with
  | ind n ih =>
    cases n with
    | zero => exact fun _ _ _ _ hp => nomatch hp
    | succ n =>
      rw [lookupWithin_succ]
      exact lookupBy_anchors htable hP (ih (n - 1) (by omega)) (ih n (by omega))

end SymbolTable

end ServiceDispatch
