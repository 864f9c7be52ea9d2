import ServiceDispatch.Proofs.Lookup.OtherNames
import ServiceDispatch.Proofs.Resolution.Elsewhere
import ServiceDispatch.Proofs.Resolution.Refining

/-!
# Tables with one more module

A module without members is added at the root of a crate in which nothing is called like it. Every
other name means what it did before. The name of the module was not known, and now it may mean the
module, which is no type and leads to none.
-/

namespace ServiceDispatch

namespace ItemPath

/-- A path of the root and one name has no other name as a member of another path: another separator
would have to stand inside the name. -/
theorem eq_of_join_eq_join_root {p : ItemPath} {name other : String} (hname : ':' ∉ name.toList)
    (hjoin : p.join other = root.join name) : other = name := by
  have htext : p.text.toList ++ ':' :: ':' :: other.toList =
      root.text.toList ++ ':' :: ':' :: name.toList := by
    simpa [join] using congrArg (fun q : ItemPath => q.text.toList) hjoin
  rcases List.append_eq_append_iff.mp htext with ⟨rest, hroot, hrest⟩ | ⟨rest, -, hrest⟩
  · cases rest with
    | nil => exact String.toList_injective (by simpa using hrest)
    | cons c rest =>
      obtain ⟨rfl, -⟩ := List.cons.inj hrest
      have hcolon : ':' ∈ root.text.toList := by simp [hroot]
      exact absurd hcolon (by decide)
  · rcases rest with _ | ⟨c, _ | ⟨d, rest⟩⟩
    · exact String.toList_injective (by simpa using hrest.symm)
    · exact absurd (by simp_all) hname
    · exact absurd (by simp_all) hname

end ItemPath

namespace SymbolTable

/-! ## Tables -/

/-- Whether two tables are the same apart from one module. -/
structure SameApart (added : ItemPath) (table table' : SymbolTable) : Prop where
  items : table'.items = table.items
  scopes : ∀ path, path ≠ added → table'.scope? path = table.scope? path
  imports : table'.imports = table.imports
  externCrates : table'.externCrates = table.externCrates

/-- Whether nothing in a table is called by a name: no item, module, import, name in an import path
or external crate. Nothing stands inside the module of this name either. -/
structure Avoids (table : SymbolTable) (name : String) : Prop where
  spares : table.Spares name
  members : ∀ other, table.declares (ItemPath.root.join name) other = false
  inside : table.importsOf (ItemPath.root.join name) = []
  paths : ∀ i ∈ table.imports, name ∉ i.binding.path.segments
  externCrates : name ∉ table.externCrates

/-- Whether a table has what another one has, and perhaps a module of a name that nothing had. -/
structure AddsModule (table table' : SymbolTable) (name : String) : Prop where
  isIdentifier : IsIdentifier name
  unknown : ∀ p, wellKnown name ≠ .ok p
  same : SameApart (ItemPath.root.join name) table table'
  avoids : table.Avoids name
  wellNamed : table.WellNamed IsIdentifier

/-- The name of no external crate means nothing, unless it is known everywhere. -/
theorem Avoids.meaningElsewhere_ne_ok {table : SymbolTable} {name : String}
    (havoids : table.Avoids name) (hunknown : ∀ p, wellKnown name ≠ .ok p) (rest : List String)
    (p : ItemPath) : table.meaningElsewhere name rest ≠ .ok p := by
  unfold meaningElsewhere
  split
  · exact hunknown p
  · rw [if_neg fun h => havoids.externCrates (List.contains_iff_mem.mp h)]
    exact fun h => nomatch h

/-- A path in a type is an item if it means one. -/
theorem resolveItem?_path_iff {table : SymbolTable} {scope p : ItemPath} {rooted : Bool}
    {segments : List Segment} : table.resolveItem? scope (.path rooted segments) = some p ↔
      table.resolveNames scope rooted (segments.map Segment.name) = .ok p ∧ table.hasItem p := by
  rw [resolveItem?, resolveItemBy?, resolveNames]
  cases table.resolveNamesBy table.lookup scope rooted (segments.map Segment.name) with
  | error e => simp
  | ok path =>
    by_cases hitem : table.hasItem path
    · simp only [hitem, if_true, Option.some.injEq, Except.ok.injEq]
      exact ⟨fun heq => ⟨heq, heq ▸ hitem⟩, fun heq => heq.1⟩
    · simp only [hitem, Except.ok.injEq]
      constructor
      · intro hnone
        cases hnone
      · intro heq
        exact absurd (heq.1 ▸ heq.2) hitem

namespace AddsModule

variable {table table' : SymbolTable} {name : String}

/-- The same items are declared, as only a module is added. -/
theorem hasItem_eq (h : table.AddsModule table' name) (path : ItemPath) :
    table'.hasItem path = table.hasItem path := by
  rw [hasItem, hasItem, h.same.items]

/-- The same modules are declared, apart from the added one. -/
theorem hasModule_eq (h : table.AddsModule table' name) {path : ItemPath}
    (hpath : path ≠ ItemPath.root.join name) : table'.hasModule path = table.hasModule path := by
  rw [hasModule, hasModule, h.same.scopes path hpath]

/-- The imports of a module are the same, and stand in the same order. -/
theorem importsOf_eq (h : table.AddsModule table' name) (module : ItemPath) :
    table'.importsOf module = table.importsOf module := by
  rw [importsOf, importsOf, h.same.imports]

/-! ## Other names -/

/-- Other names are declared as before, in every module, also in the one that is added. -/
theorem declares_eq (h : table.AddsModule table' name) (module : ItemPath) {other : String}
    (hother : other ≠ name) : table'.declares module other = table.declares module other := by
  have hpath : module.join other ≠ ItemPath.root.join name :=
    fun heq => hother (ItemPath.eq_of_join_eq_join_root h.isIdentifier.isSegment.2 heq)
  rw [declares, declares, h.hasItem_eq, h.hasModule_eq hpath]

/-- The table with the module extends the one without it at its name. -/
theorem extendsAt (h : table.AddsModule table' name) : table.ExtendsAt table' name where
  declares := fun module _ hother => h.declares_eq module hother
  imports := fun module => ⟨[], by rw [h.importsOf_eq, List.append_nil], nofun⟩
  paths := h.avoids.paths

/-- Other names mean the same within any number of steps, because no import path has the name of the
added module in it. -/
theorem lookupWithin_agreesOff (h : table.AddsModule table' name) (n : Nat) :
    (table.lookupWithin n).AgreesOff name (table'.lookupWithin n) :=
  h.extendsAt.lookupWithin_agreesOff n

/-! ## The name of the module -/

/-- Names led to paths of the crate, or to external paths of identifiers. -/
theorem anchors (h : table.AddsModule table' name) (n : Nat) :
    (table.lookupWithin n).Anchors IsIdentifier :=
  h.wellNamed.lookupWithin_anchors (fun _ hname => hname.isSegment.2) n

/-- The name of the added module was not known, in any module and within any number of steps. -/
theorem lookupWithin_before (h : table.AddsModule table' name) (n : Nat) {module : ItemPath}
    (hmodule : module.InCrate) : table.lookupWithin n module name = none :=
  h.avoids.spares.lookupWithin_eq_none h.isIdentifier.isSegment h.wellNamed
    (fun _ hname => hname.isSegment.2) n hmodule

/-- The added module has no members, neither declared nor imported ones. -/
theorem lookupWithin_added (h : table.AddsModule table' name) (n : Nat) (other : String) :
    table'.lookupWithin n (ItemPath.root.join name) other = none := by
  cases n with
  | zero => rfl
  | succ n =>
    have hlonger : (ItemPath.root.join name).join other ≠ ItemPath.root.join name := by
      intro heq
      have hlength := congrArg (fun p : ItemPath => p.text.length) heq
      have hcolons : "::".length = 2 := rfl
      simp only [ItemPath.join, String.length_append] at hlength
      omega
    have hdeclares : table'.declares (ItemPath.root.join name) other = false := by
      have hbefore := h.avoids.members other
      rwa [declares, ← h.hasItem_eq, ← h.hasModule_eq hlonger] at hbefore
    rw [lookupWithin_succ, SymbolTable.lookupBy_eq, hdeclares, if_neg Bool.false_ne_true,
      h.importsOf_eq, h.avoids.inside]
    rfl

/-- No names lead from the added module to something else. -/
theorem foldlM_step_added (h : table.AddsModule table' name) (n : Nat) {p : ItemPath}
    (hp : p ≠ ItemPath.root.join name) (names : List String) :
    names.foldlM (UsePath.step (table'.lookupWithin n)) (ItemPath.root.join name) ≠ some p := by
  intro hsteps
  cases names with
  | nil => exact hp (Option.some.inj hsteps).symm
  | cons first rest =>
    have hcrate : (ItemPath.root.join name).isCrateLocal :=
      (ItemPath.inCrate_root.join h.isIdentifier.isSegment).isCrateLocal
    rw [List.foldlM_cons, UsePath.step, if_pos hcrate, h.lookupWithin_added] at hsteps
    cases hsteps

/-- The name of the added module means nothing else, in whichever module it is looked up. Where it
is not declared only globs are left, and they lead to the same modules as before. -/
theorem lookupWithin_name (h : table.AddsModule table' name) (n : Nat) {module : ItemPath}
    (hmodule : module.InCrate) :
    ∀ p, table'.lookupWithin n module name = some p → p = ItemPath.root.join name := by
  induction n generalizing module with
  | zero =>
    intro _ hp
    cases hp
  | succ n ih =>
    intro p hp
    have hnamed : (table.importsOf module).findSome? (Import.pathOf? name) = none := by
      refine List.findSome?_eq_none_iff.mpr fun binding hbinding => ?_
      obtain ⟨i, hi, rfl⟩ := exists_import_of_mem_importsOf hbinding
      exact h.avoids.spares.imports i hi
    rw [lookupWithin_succ, SymbolTable.lookupBy_eq, h.importsOf_eq, hnamed] at hp
    split at hp
    · rename_i hdeclares
      obtain rfl := Option.some.inj hp
      by_contra hne
      have hbefore := h.avoids.spares.declares_eq_false h.isIdentifier.isSegment hmodule
      rw [declares, h.hasItem_eq, h.hasModule_eq hne, ← declares, hbefore] at hdeclares
      cases hdeclares
    · obtain ⟨binding, hbinding, hmember⟩ := List.exists_of_findSome?_eq_some hp
      cases binding with
      | named bound path => cases hmember
      | glob path =>
        obtain ⟨target, htarget, hmember⟩ := Option.bind_eq_some_iff.mp hmember
        obtain ⟨i, hi, hpath⟩ := exists_import_of_mem_importsOf hbinding
        have hsegments : name ∉ path.segments := by
          have hi := h.avoids.paths i hi
          rwa [hpath] at hi
        rw [UsePath.target?_agreesOff (h.lookupWithin_agreesOff (n - 1)) hsegments] at htarget
        have hanchored := h.wellNamed.target?_anchored (fun _ hname => hname.isSegment.2)
          (h.anchors (n - 1)) hmodule hbinding htarget
        split at hmember
        · rename_i hlocal
          exact ih (hanchored.inCrate hlocal) p hmember
        · cases hmember

/-! ## Paths in types -/

/-- Path steps lead to the same, unless they lead to the added module. This was not found before,
and it has no members now. -/
theorem foldlM_step_iff (h : table.AddsModule table' name) (n : Nat) {p : ItemPath}
    (hp : p ≠ ItemPath.root.join name) (names : List String) {base : ItemPath}
    (hbase : base.Anchored fun _ => True) :
    names.foldlM (UsePath.step (table'.lookupWithin n)) base = some p ↔
      names.foldlM (UsePath.step (table.lookupWithin n)) base = some p := by
  induction names generalizing base with
  | nil => rfl
  | cons first rest ih =>
    have hnext {next : ItemPath}
        (hstep : UsePath.step (table.lookupWithin n) base first = some next) :
        next.Anchored fun _ => True := by
      have hsteps : [first].foldlM (UsePath.step (table.lookupWithin n)) base = some next := by
        simpa using hstep
      exact UsePath.foldlM_step_anchored (h.anchors n) (fun _ _ => trivial) (fun _ _ => trivial)
        hbase hsteps
    rw [List.foldlM_cons, List.foldlM_cons]
    by_cases hother : base.isCrateLocal ∧ first = name
    · obtain ⟨hlocal, rfl⟩ := hother
      have hmodule := hbase.inCrate hlocal
      rw [UsePath.step, if_pos hlocal, UsePath.step, if_pos hlocal, h.lookupWithin_before n hmodule]
      constructor
      · intro hsteps
        obtain ⟨next, hnext, hsteps⟩ := Option.bind_eq_some_iff.mp hsteps
        obtain rfl := h.lookupWithin_name n hmodule next hnext
        exact absurd hsteps (h.foldlM_step_added n hp rest)
      · intro hsteps
        cases hsteps
    · have hstep : UsePath.step (table'.lookupWithin n) base first =
          UsePath.step (table.lookupWithin n) base first := by
        rw [UsePath.step, UsePath.step]
        split
        · rename_i hlocal
          exact h.lookupWithin_agreesOff n base first fun heq => hother ⟨hlocal, heq⟩
        · rfl
      rw [hstep]
      cases hfirst : UsePath.step (table.lookupWithin n) base first with
      | none => rfl
      | some next => exact ih (hnext hfirst)

/-- Members are found alike, unless they are the added module. The paths that a walk along names
begins with are in the crate or of another one. -/
theorem descend_iff (h : table.AddsModule table' name) {p : ItemPath}
    (hp : p ≠ ItemPath.root.join name) (names : List String) {base : ItemPath}
    (hbase : base.Anchored fun _ => True) :
    descend table'.lookup base names = .ok p ↔ descend table.lookup base names = .ok p := by
  rw [descend_eq_ok, descend_eq_ok]
  exact h.foldlM_step_iff maxSteps hp names hbase

/-- Paths whose first name is not known mean the same. -/
theorem meaningElsewhere_eq (h : table.AddsModule table' name) (first : String)
    (rest : List String) :
    table'.meaningElsewhere first rest = table.meaningElsewhere first rest := by
  rw [meaningElsewhere, meaningElsewhere, h.same.externCrates]

/-- Paths with a plain first name mean the same, unless they mean the added module. If its name
stands first it was not known before, and now it means the module at most. -/
theorem resolveNames_iff_of_plain (h : table.AddsModule table' name) {scope : ItemPath}
    (hscope : scope.InCrate) {p : ItemPath} (hp : p ≠ ItemPath.root.join name) {first : String}
    (hplain : IsPlainName first) (rest : List String) :
    table'.resolveNames scope false (first :: rest) = .ok p ↔
      table.resolveNames scope false (first :: rest) = .ok p := by
  rw [resolveNames, resolveNames]
  by_cases hfirst : first = name
  · subst hfirst
    have hnone : table.meaningElsewhere first rest ≠ .ok p :=
      h.avoids.meaningElsewhere_ne_ok h.unknown rest p
    have hbefore : table.lookup scope first = none := h.lookupWithin_before maxSteps hscope
    rw [resolveNamesBy_of_unknown hplain hbefore]
    refine iff_of_false ?_ hnone
    cases hafter : table'.lookup scope first with
    | none => rwa [resolveNamesBy_of_unknown hplain hafter, h.meaningElsewhere_eq]
    | some base =>
      obtain rfl := h.lookupWithin_name maxSteps hscope base hafter
      rw [resolveNamesBy_of_known hplain hafter]
      exact fun hsteps => h.foldlM_step_added maxSteps hp rest (descend_eq_ok.mp hsteps)
  · have hsame : table'.lookup scope first = table.lookup scope first :=
      h.lookupWithin_agreesOff maxSteps scope first hfirst
    cases hbase : table.lookup scope first with
    | none =>
      rw [resolveNamesBy_of_unknown hplain hbase,
        resolveNamesBy_of_unknown hplain (hsame.trans hbase), h.meaningElsewhere_eq]
    | some base =>
      rw [resolveNamesBy_of_known hplain hbase,
        resolveNamesBy_of_known hplain (hsame.trans hbase)]
      have hanchored := h.anchors maxSteps scope first base hscope hbase
      exact h.descend_iff hp rest (hanchored.mono fun _ _ => trivial)

/-- Paths of plain names mean the same, unless they mean the added module. -/
theorem resolveNames_iff (h : table.AddsModule table' name) {scope : ItemPath}
    (hscope : scope.InCrate) {p : ItemPath} (hp : p ≠ ItemPath.root.join name) (rooted : Bool)
    (names : List String) : table'.resolveNames scope rooted names = .ok p ↔
      table.resolveNames scope rooted names = .ok p := by
  cases names with
  | nil => simp only [resolveNames, resolveNamesBy]
  | cons first rest =>
    cases rooted with
    | true => simp only [resolveNames, resolveNamesBy, if_true]
    | false =>
      by_cases hplain : IsPlainName first
      · exact h.resolveNames_iff_of_plain hscope hp hplain rest
      · unfold resolveNames resolveNamesBy
        simp only [Bool.false_eq_true, if_false]
        split
        · exact h.descend_iff hp rest (.inl ItemPath.inCrate_root)
        · exact h.descend_iff hp rest (.inl hscope)
        · rw [Results.bind_eq_ok_iff, Results.bind_eq_ok_iff]
          refine exists_congr fun up => and_congr_right fun hup => ?_
          have hanchored := (UsePath.ascend_anchored (P := fun name => ':' ∉ name.toList)
            (fun _ => id) (.inl hscope) (ascend_eq_ok.mp hup)).1
          exact h.descend_iff hp up.2 (hanchored.mono fun _ _ => trivial)
        · rename_i hcrate hself hsuper
          exact absurd ⟨hcrate, hself, hsuper⟩ hplain

/-- No item is the added module, since no item has its name. -/
theorem ne_added_of_hasItem (h : table.AddsModule table' name) {p : ItemPath}
    (hp : table.hasItem p) : p ≠ ItemPath.root.join name := by
  rintro rfl
  exact h.avoids.spares.items _ (List.contains_iff_mem.mp hp)
    (ItemPath.inCrate_root.terminal_join h.isIdentifier.isSegment)

/-- Types are the same items: the added module is none, and no type means it. -/
theorem resolveItem?_eq (h : table.AddsModule table' name) {scope : ItemPath}
    (hscope : scope.InCrate) (t : Ty) :
    table'.resolveItem? scope t = table.resolveItem? scope t := by
  cases t with
  | path rooted segments =>
    refine Option.ext fun p => ?_
    rw [resolveItem?_path_iff, resolveItem?_path_iff, h.hasItem_eq]
    refine and_congr_left fun hitem => ?_
    exact h.resolveNames_iff hscope (h.ne_added_of_hasItem hitem) rooted _
  | _ => simp only [resolveItem?, resolveItemBy?]

/-- Paths in types mean the same, since none of them means the added module, which is no item. -/
theorem resolveBase_iff (h : table.AddsModule table' name) {scope : ItemPath}
    (hscope : scope.InCrate) (whole : String) (rooted : Bool) (segments : List Segment)
    (p : ItemPath) :
    table'.resolveBase scope whole rooted segments = .ok p ↔
      table.resolveBase scope whole rooted segments = .ok p := by
  have hadded : (ItemPath.root.join name).isCrateLocal ∧
      table.hasItem (ItemPath.root.join name) = false :=
    ⟨(ItemPath.inCrate_root.join h.isIdentifier.isSegment).isCrateLocal,
      eq_false_of_ne_true fun hitem => h.ne_added_of_hasItem hitem rfl⟩
  unfold resolveBase
  dsimp only
  split
  · rfl
  · rw [Results.bind_eq_ok_iff, Results.bind_eq_ok_iff]
    refine exists_congr fun base => ?_
    rw [h.hasItem_eq]
    by_cases hbase : base = ItemPath.root.join name
    · subst hbase
      rw [hadded.1, hadded.2]
      exact iff_of_false (fun hp => nomatch hp.2) (fun hp => nomatch hp.2)
    · exact and_congr_left fun _ => h.resolveNames_iff hscope hbase rooted _

/-! ## Types -/

/-- Types that resolve render alike, and no more of them resolve. -/
theorem resolveTy_iff (h : table.AddsModule table' name) {scope : ItemPath}
    (hscope : scope.InCrate) (t : Ty) (r : String) :
    table'.resolveTy scope t = .ok r ↔ table.resolveTy scope t = .ok r := by
  have hbase := h.resolveBase_iff hscope
  rw [SymbolTable.resolveTy_eq, SymbolTable.resolveTy_eq, Results.map_eq_ok_iff,
    Results.map_eq_ok_iff]
  refine exists_congr fun u => and_congr_left fun _ => ⟨?_, ?_⟩
  · exact ResolvedTy.ofTy_of_refines (fun whole rooted segments p => (hbase _ _ _ p).mp) t u
  · exact ResolvedTy.ofTy_of_refines (fun whole rooted segments p => (hbase _ _ _ p).mpr) t u

/-- Parameters that resolve render alike, and no more of them resolve. -/
theorem resolver_iff (h : table.AddsModule table' name) {parameter : Parameter}
    (hscope : parameter.scope.InCrate) (r : String) :
    Resolver.ofTable table' parameter = .ok r ↔ Resolver.ofTable table parameter = .ok r := by
  unfold Resolver.ofTable
  cases Ty.ofText? parameter.target with
  | none => rfl
  | some t => exact h.resolveTy_iff hscope t r

end AddsModule

end SymbolTable

end ServiceDispatch
