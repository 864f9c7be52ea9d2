import ServiceDispatch.Proofs.Lookup.OtherNames
import ServiceDispatch.Proofs.Resolution.Paths

/-!
# Paths under a name of their own

A path that is imported under a new name means what it means in a type, looked up within two steps
less. In an import `self` may stand before `super`, which in a type it may not, and a single name
that is only known everywhere is taken for an external crate.
-/

namespace ServiceDispatch

namespace UsePath

variable {find : Finder} {module q : ItemPath} {rest : List String}

/-- A path without the `self` in front of its steps up. -/
def withoutSelf : List String → List String
  | "self" :: "super" :: rest => "super" :: rest
  | names => names

/-- A path with a plain first name is read as it stands. -/
theorem withoutSelf_of_plain {first : String} (hplain : IsPlainName first) (rest : List String) :
    withoutSelf (first :: rest) = first :: rest := by
  obtain ⟨-, hself, -⟩ := hplain
  unfold withoutSelf
  split
  · simp_all
  · rfl

/-- A path behind `self` without steps up is read as it stands. -/
theorem withoutSelf_of_self (hrest : ∀ more, rest ≠ "super" :: more) :
    withoutSelf ("self" :: rest) = "self" :: rest := by
  unfold withoutSelf
  split
  · simp_all
  · rfl

/-- Whether a step up stands behind the first name only if that is `self` or a step up, too. -/
def AscendsInFront (names : List String) : Prop :=
  ∀ first rest, names = first :: "super" :: rest → first = "self" ∨ first = "super"

/-- What a relative path leads to: it goes up first, and then by the names that are left. -/
def descent? (find : Finder) (base : ItemPath) (names : List String) : Option ItemPath :=
  (ascend base names).bind fun up => up.2.foldlM (step find) up.1

/-- A path of the crate is relative to its root. -/
theorem target?_crate : target? find module ⟨false, "crate" :: rest⟩ = descent? find .root rest :=
  rfl

/-- A path behind `self` is relative to its module, whatever `self` would be found for. -/
theorem target?_self : target? find module ⟨false, "self" :: rest⟩ = descent? find module rest :=
  rfl

/-- A path with steps up is relative to its module. -/
theorem target?_super :
    target? find module ⟨false, "super" :: rest⟩ = descent? find module ("super" :: rest) := by
  have htarget : target? find module ⟨false, "super" :: rest⟩ =
      module.parent?.bind (descent? find · rest) := rfl
  rw [htarget, descent?, ascend]
  cases module.parent? <;> rfl

/-- A path behind a known name is relative to what the name means. -/
theorem target?_plain {first : String} (hplain : IsPlainName first) {base : ItemPath}
    (hfirst : find module first = some base) :
    target? find module ⟨false, first :: rest⟩ = descent? find base rest := by
  obtain ⟨hcrate, hself, hsuper⟩ := hplain
  unfold target?
  simp only [Bool.false_eq_true, if_false]
  rw [hfirst]
  rfl

/-- A relative path without steps up leads where its names do. -/
theorem descent?_eq_some_iff (hrest : ∀ more, rest ≠ "super" :: more) {base : ItemPath} :
    descent? find base rest = some q ↔ SymbolTable.descend find base rest = .ok q := by
  have hascend : ascend base rest = some (base, rest) := by
    unfold ascend
    split
    · exact absurd rfl (hrest _)
    · rfl
  rw [SymbolTable.descend_eq_ok, descent?, hascend, Option.bind_some]

end UsePath

namespace SymbolTable

open UsePath (withoutSelf AscendsInFront)

variable {table : SymbolTable} {find : Finder} {scope q : ItemPath} {name : String}
  {names : List String}

/-! ## Paths in types and in imports -/

/-- A path whose first name is known means the same in a type and in an import. Its steps up in
front are read alike in both. -/
theorem resolveNamesBy_withoutSelf_iff (hfront : AscendsInFront names)
    (hknown : ∀ first rest, names = first :: rest → IsPlainName first → find scope first ≠ none) :
    table.resolveNamesBy find scope false (withoutSelf names) = .ok q ↔
      UsePath.target? find scope ⟨false, names⟩ = some q := by
  have hup (rest : List String) :
      table.resolveNamesBy find scope false ("super" :: rest) = .ok q ↔
        UsePath.descent? find scope ("super" :: rest) = some q := by
    have hresolve : table.resolveNamesBy find scope false ("super" :: rest) =
        ascend scope ("super" :: rest) >>= fun up => descend find up.1 up.2 := rfl
    rw [hresolve, Results.bind_eq_ok_iff, UsePath.descent?, Option.bind_eq_some_iff]
    simp only [ascend_eq_ok, descend_eq_ok]
  cases names with
  | nil => exact ⟨nofun, nofun⟩
  | cons first rest =>
    have hrest (hself : first ≠ "self") (hsuper : first ≠ "super") (more : List String) :
        rest ≠ "super" :: more := by
      rintro rfl
      rcases hfront first more rfl with h | h
      · exact hself h
      · exact hsuper h
    by_cases hcrate : first = "crate"
    · subst hcrate
      rw [UsePath.target?_crate, UsePath.descent?_eq_some_iff (hrest (by decide) (by decide))]
      rfl
    by_cases hself : first = "self"
    · subst hself
      rw [UsePath.target?_self]
      by_cases hmore : ∃ more, rest = "super" :: more
      · obtain ⟨more, rfl⟩ := hmore
        exact hup more
      · have hnot : ∀ more, rest ≠ "super" :: more := not_exists.mp hmore
        rw [UsePath.withoutSelf_of_self hnot, UsePath.descent?_eq_some_iff hnot]
        rfl
    by_cases hsuper : first = "super"
    · subst hsuper
      rw [UsePath.target?_super]
      exact hup rest
    · have hplain : IsPlainName first := ⟨hcrate, hself, hsuper⟩
      obtain ⟨base, hbase⟩ := Option.ne_none_iff_exists'.mp (hknown first rest rfl hplain)
      rw [UsePath.withoutSelf_of_plain hplain, resolveNamesBy_of_known hplain hbase,
        UsePath.target?_plain hplain hbase,
        UsePath.descent?_eq_some_iff (hrest hself hsuper)]

/-! ## An import under a new name -/

/-- Whether a name is not used in a table: no module declares or imports it, and no import path
mentions it. -/
structure IsUnused (table : SymbolTable) (name : String) : Prop where
  plain : IsPlainName name
  declares : ∀ module, table.declares module name = false
  imports : ∀ i ∈ table.imports, i.binding.pathOf? name = none
  paths : ∀ i ∈ table.imports, name ∉ i.binding.path.segments

/-- The imports of a module with one more import, which stands behind those that it had. -/
theorem importsOf_addImport (table : SymbolTable) (scope module : ItemPath) (binding : Import) :
    (table.addImport scope binding).importsOf module =
      table.importsOf module ++ if scope = module then [binding] else [] := by
  by_cases hmodule : scope = module
  · simp [addImport, importsOf, hmodule]
  · simp [addImport, importsOf, hmodule]

/-- An import under an unused name changes nothing about other names. -/
theorem IsUnused.extendsAt (hunused : table.IsUnused name) (scope : ItemPath) (path : UsePath) :
    table.ExtendsAt (table.addImport scope (.named name path)) name where
  declares := fun _ _ _ => rfl
  imports := by
    intro module
    refine ⟨_, importsOf_addImport table scope module _, fun binding hbinding => ?_⟩
    split at hbinding
    · exact ⟨path, List.mem_singleton.mp hbinding⟩
    · exact absurd hbinding List.not_mem_nil
  paths := hunused.paths

/-- A path that is imported under an unused name is looked up within two steps less. -/
theorem IsUnused.lookupWithin_addImport (hunused : table.IsUnused name) (scope : ItemPath)
    {path : UsePath} (hpath : name ∉ path.segments) (n : Nat) :
    (table.addImport scope (.named name path)).lookupWithin (n + 1) scope name =
      path.target? (table.lookupWithin (n - 1)) scope := by
  have hnone : (table.importsOf scope).findSome? (Import.pathOf? name) = none := by
    refine List.findSome?_eq_none_iff.mpr fun binding hbinding => ?_
    obtain ⟨i, hi, rfl⟩ := exists_import_of_mem_importsOf hbinding
    exact hunused.imports i hi
  have hnamed : (table.addImport scope (.named name path)).namedImport? scope name = some path := by
    have hdeclares : (table.addImport scope (.named name path)).declares scope name = false :=
      hunused.declares scope
    rw [namedImport?, hdeclares, importsOf_addImport, List.findSome?_append, hnone]
    simp [Import.pathOf?]
  rw [lookupWithin_of_namedImport? hnamed]
  exact UsePath.target?_agreesOff ((hunused.extendsAt scope path).lookupWithin_agreesOff (n - 1))
    hpath scope

/-- The name of an external crate, and names that are known everywhere, mean no path of the
crate. -/
theorem isCrateLocal_of_meaningElsewhere {first : String} {rest : List String}
    (hmeaning : table.meaningElsewhere first rest = .ok q) : q.isCrateLocal = false := by
  unfold meaningElsewhere at hmeaning
  split at hmeaning
  · rcases wellKnown_eq_ok hmeaning with ⟨hprimitive, rfl⟩ | hprelude
    · have hnone : ∀ name ∈ primitiveTypes, (ItemPath.mk name).isCrateLocal = false := by decide
      exact hnone first hprimitive
    · have hnone : ∀ p ∈ preludeTypes.map Prod.snd, p.isCrateLocal = false := by decide
      exact hnone q hprelude
  · split at hmeaning
    · obtain rfl := Except.ok.inj hmeaning
      exact ItemPath.isCrateLocal_external _
    · exact nomatch hmeaning

/-- A single name means what it is found to mean. -/
theorem resolveNames_singleton (hplain : IsPlainName name)
    (hfound : table.lookup scope name = some q) : table.resolveNames scope false [name] = .ok q :=
  resolveNamesBy_of_known hplain hfound []

/-- A single name that means a path of the crate is found. -/
theorem lookup_of_resolveNames (hplain : IsPlainName name) (hlocal : q.isCrateLocal)
    (hname : table.resolveNames scope false [name] = .ok q) : table.lookup scope name = some q := by
  cases hfound : table.lookup scope name with
  | some base => rw [← Except.ok.inj (hname.symm.trans (resolveNames_singleton hplain hfound))]
  | none =>
    rw [resolveNames, resolveNamesBy_of_unknown hplain hfound] at hname
    simp [isCrateLocal_of_meaningElsewhere hname] at hlocal

/-- A path means the same path of the crate in a type and in an import. Where its first name is not
known it means none in either of them. -/
theorem resolveNamesBy_withoutSelf_iff_of_isCrateLocal (hfront : AscendsInFront names)
    (hlocal : q.isCrateLocal) :
    table.resolveNamesBy find scope false (withoutSelf names) = .ok q ↔
      UsePath.target? find scope ⟨false, names⟩ = some q := by
  by_cases hknown : ∀ first rest, names = first :: rest → IsPlainName first →
      find scope first ≠ none
  · exact resolveNamesBy_withoutSelf_iff hfront hknown
  · push Not at hknown
    obtain ⟨first, rest, rfl, hplain, hfirst⟩ := hknown
    rw [UsePath.target?_of_unknown rfl rfl hplain hfirst, UsePath.withoutSelf_of_plain hplain,
      resolveNamesBy_of_unknown hplain hfirst]
    constructor
    · intro hmeaning
      simp [isCrateLocal_of_meaningElsewhere hmeaning] at hlocal
    · intro hexternal
      rw [← Option.some.inj hexternal, ItemPath.isCrateLocal_external] at hlocal
      exact nomatch hlocal

/-- What a path means in a type it means in an import, too, unless it is a single name that is not
known. Such a name may be known everywhere, and an import takes it for an external crate. -/
theorem target?_of_resolveNamesBy_withoutSelf (hfront : AscendsInFront names)
    (hsingle : ∀ first, names = [first] → IsPlainName first → find scope first ≠ none)
    (hq : table.resolveNamesBy find scope false (withoutSelf names) = .ok q) :
    UsePath.target? find scope ⟨false, names⟩ = some q := by
  by_cases hknown : ∀ first rest, names = first :: rest → IsPlainName first →
      find scope first ≠ none
  · exact (resolveNamesBy_withoutSelf_iff hfront hknown).mp hq
  · push Not at hknown
    obtain ⟨first, rest, rfl, hplain, hfirst⟩ := hknown
    have hrest : rest ≠ [] := by
      rintro rfl
      exact hsingle first rfl hplain hfirst
    rw [UsePath.withoutSelf_of_plain hplain, resolveNamesBy_of_unknown hplain hfirst,
      meaningElsewhere, if_neg (by simpa using hrest)] at hq
    rw [UsePath.target?_of_unknown rfl rfl hplain hfirst]
    split at hq
    · exact congrArg some (Except.ok.inj hq)
    · exact nomatch hq

/-- A path in a type, looked up within two steps less, and an unused name under which it is imported
mean the same paths of the crate. They mean the same external paths, too, unless the path is a
single name that is not known in its module: this is taken for an external crate. The hypotheses
exclude names that are declared or imported already, or stand in an import path or in the path
itself, and paths with a step up behind another name, which no compiler accepts. -/
theorem resolveNames_addImport (table : SymbolTable) (scope : ItemPath) (name : String)
    (names : List String) (hunused : table.IsUnused name) (hnames : name ∉ names)
    (hfront : AscendsInFront names) :
    (∀ q, table.resolveNamesBy (table.lookupWithin (maxSteps - 2)) scope false (withoutSelf names) =
        .ok q →
      (∀ first, names = [first] → IsPlainName first →
        table.lookupWithin (maxSteps - 2) scope first ≠ none) →
      (table.addImport scope (.named name ⟨false, names⟩)).resolveNames scope false [name] =
        .ok q) ∧
    (∀ first, names = [first] → IsPlainName first →
      table.lookupWithin (maxSteps - 2) scope first = none →
      (table.addImport scope (.named name ⟨false, names⟩)).resolveNames scope false [name] =
        .ok (.external [first])) ∧
    (∀ q, q.isCrateLocal →
      ((table.addImport scope (.named name ⟨false, names⟩)).resolveNames scope false [name] =
          .ok q ↔
        table.resolveNamesBy (table.lookupWithin (maxSteps - 2)) scope false (withoutSelf names) =
          .ok q)) ∧
    (table.AnswersLast (maxSteps - 2) maxSteps → ∀ q, q.isCrateLocal →
      (table.addImport scope (.named name ⟨false, names⟩)).resolveNames scope false [name] =
        .ok q →
      table.resolveNames scope false (withoutSelf names) = .ok q) := by
  have hlookup : (table.addImport scope (.named name ⟨false, names⟩)).lookup scope name =
      UsePath.target? (table.lookupWithin (maxSteps - 2)) scope ⟨false, names⟩ :=
    hunused.lookupWithin_addImport scope hnames 16
  have hiff (q : ItemPath) (hlocal : q.isCrateLocal) :
      (table.addImport scope (.named name ⟨false, names⟩)).resolveNames scope false [name] =
          .ok q ↔
        table.resolveNamesBy (table.lookupWithin (maxSteps - 2)) scope false (withoutSelf names) =
          .ok q := by
    have hfound : (table.addImport scope (.named name ⟨false, names⟩)).resolveNames scope false
        [name] = .ok q ↔
          UsePath.target? (table.lookupWithin (maxSteps - 2)) scope ⟨false, names⟩ = some q := by
      rw [← hlookup]
      exact ⟨lookup_of_resolveNames hunused.plain hlocal, resolveNames_singleton hunused.plain⟩
    exact hfound.trans (resolveNamesBy_withoutSelf_iff_of_isCrateLocal hfront hlocal).symm
  refine ⟨fun q hq hsingle => ?_, ?_, hiff, fun hlast q hlocal hname => ?_⟩
  · apply resolveNames_singleton hunused.plain
    rw [hlookup]
    exact target?_of_resolveNamesBy_withoutSelf hfront hsingle hq
  · rintro first rfl hplain hfirst
    apply resolveNames_singleton hunused.plain
    rw [hlookup, UsePath.target?_of_unknown rfl rfl hplain hfirst]
  · exact hlast.names _ _ _ _ ((hiff q hlocal).mp hname)

/-! ## A module below the root -/

/-- An item of the crate root and a module beside it. -/
def besideItem : SymbolTable where
  items := [⟨"crate::X"⟩]
  modules := [⟨.root, .root⟩, ⟨⟨"crate::m"⟩, .root⟩]

/-- A name that no path of the table ends with is not used: a member of that name ends with its
letter. -/
theorem isUnused_besideItem : besideItem.IsUnused "Z" where
  plain := by decide
  declares := by
    intro module
    have hends : ∀ path : ItemPath, path.text.toList.getLast? ≠ some 'Z' →
        path ≠ module.join "Z" := by
      rintro path hpath rfl
      exact hpath (by simp [ItemPath.join])
    have hitem := hends ⟨"crate::X"⟩ (by decide)
    have hroot := hends .root (by decide)
    have hmodule := hends ⟨"crate::m"⟩ (by decide)
    simp [declares, hasItem, hasModule, scope?, besideItem, hitem.symm, hroot, hmodule]
  imports := nofun
  paths := nofun

/-- Behind `self` a step up leads on in an import, and to nothing in a type. A name of the prelude
is known in a type, and in an import it is taken for an external crate. -/
theorem resolveNames_selfSuper :
    besideItem.IsUnused "Z" ∧
      (besideItem.addImport ⟨"crate::m"⟩ (.named "Z" ⟨false, ["self", "super", "X"]⟩)).resolveNames
        ⟨"crate::m"⟩ false ["Z"] = .ok ⟨"crate::X"⟩ ∧
      besideItem.resolveNames ⟨"crate::m"⟩ false ["self", "super", "X"] =
        .error (.unknownMember ⟨"crate::m"⟩ "super") ∧
      besideItem.resolveNames ⟨"crate::m"⟩ false ["String"] = .ok ⟨"::std::string::String"⟩ ∧
      (besideItem.addImport ⟨"crate::m"⟩ (.named "Z" ⟨false, ["String"]⟩)).resolveNames
        ⟨"crate::m"⟩ false ["Z"] = .ok ⟨"::String"⟩ :=
  ⟨isUnused_besideItem, rfl, rfl, rfl, rfl⟩

/-- Without imports every step but the first is one too many. -/
theorem lookupWithin_of_imports_nil (himports : table.imports = []) (n : Nat) :
    table.lookupWithin (n + 1) = table.lookupWithin 1 := by
  funext module name
  cases n with
  | zero => rfl
  | succ n => simp [lookupWithin, lookupBy, importsOf, himports]

/-- Any number of steps will do for a table without imports. -/
theorem answersLast_besideItem : besideItem.AnswersLast (maxSteps - 2) maxSteps := by
  have hsame : besideItem.lookupWithin (maxSteps - 2) = besideItem.lookupWithin maxSteps :=
    (lookupWithin_of_imports_nil rfl 14).trans (lookupWithin_of_imports_nil rfl 16).symm
  constructor
  · rw [hsame]
    exact fun _ _ _ h => h
  · rw [hsame]
    exact fun _ _ _ _ h => h
  · rw [hsame]
    exact fun _ _ _ h => h

/-- Both ways the path with its steps up means the item. More steps than the import leaves would
change no answer of the table. -/
theorem resolveNames_importedItem :
    besideItem.IsUnused "Z" ∧ "Z" ∉ ["self", "super", "X"] ∧
      AscendsInFront ["self", "super", "X"] ∧
      besideItem.AnswersLast (maxSteps - 2) maxSteps ∧
      (besideItem.addImport ⟨"crate::m"⟩ (.named "Z" ⟨false, ["self", "super", "X"]⟩)).resolveNames
        ⟨"crate::m"⟩ false ["Z"] = .ok ⟨"crate::X"⟩ ∧
      besideItem.resolveNames ⟨"crate::m"⟩ false ["super", "X"] = .ok ⟨"crate::X"⟩ := by
  have hfront : AscendsInFront ["self", "super", "X"] := by
    intro first rest heq
    exact .inl (List.cons.inj heq).1.symm
  have hname : "Z" ∉ ["self", "super", "X"] := by decide
  obtain ⟨hmeans, -, -, hback⟩ := resolveNames_addImport besideItem ⟨"crate::m"⟩ "Z"
    ["self", "super", "X"] isUnused_besideItem hname hfront
  have hZ := hmeans ⟨"crate::X"⟩ rfl fun _ hsingle => nomatch hsingle
  exact ⟨isUnused_besideItem, hname, hfront, answersLast_besideItem, hZ,
    hback answersLast_besideItem _ (by decide) hZ⟩

end SymbolTable

end ServiceDispatch
