import ServiceDispatch.Proofs.Resolution.Anchors

/-!
# Names that keep their meaning

When something is declared or imported under one name that no import path mentions, all other names
mean what they did before.
-/

namespace ServiceDispatch

/-! ## Finders -/

/-- Whether two finders agree about all names but one. -/
def Finder.AgreesOff (name : String) (find find' : Finder) : Prop :=
  ∀ module other, other ≠ name → find' module other = find module other

namespace UsePath

variable {find find' : Finder} {name : String}

/-- Path steps by other names lead to the same, if lookups agree on all names but one. -/
theorem foldlM_step_agreesOff (hfind : find.AgreesOff name find') {names : List String}
    (hnames : name ∉ names) (base : ItemPath) :
    names.foldlM (step find') base = names.foldlM (step find) base := by
  induction names generalizing base with
  | nil => rfl
  | cons first rest ih =>
    obtain ⟨hfirst, hrest⟩ := List.ne_and_not_mem_of_not_mem_cons hnames
    have hstep : step find' base first = step find base first := by
      rw [step, step, hfind base first (Ne.symm hfirst)]
    rw [List.foldlM_cons, List.foldlM_cons, hstep]
    exact congrArg _ (funext fun next => ih hrest next)

/-- The names that are left after going up are among those before. -/
theorem subset_of_ascend {names : List String} {base : ItemPath} {up : ItemPath × List String}
    (hup : ascend base names = some up) : up.2 ⊆ names := by
  induction names generalizing base with
  | nil =>
    obtain rfl := Option.some.inj hup
    exact List.Subset.refl _
  | cons first rest ih =>
    unfold ascend at hup
    split at hup
    · rename_i heq
      obtain ⟨rfl, rfl⟩ := List.cons.inj heq
      obtain ⟨parent, -, hup⟩ := Option.bind_eq_some_iff.mp hup
      exact List.Subset.trans (ih hup) (List.subset_cons_self _ _)
    · obtain rfl := Option.some.inj hup
      exact List.Subset.refl _

/-- An import path with other names leads to the same. -/
theorem target?_agreesOff (hfind : find.AgreesOff name find') {path : UsePath}
    (hpath : name ∉ path.segments) (module : ItemPath) :
    path.target? find' module = path.target? find module := by
  have hrelative (base : ItemPath) {names : List String} (hnames : name ∉ names) :
      ((ascend base names).bind fun up => up.2.foldlM (step find') up.1) =
        (ascend base names).bind fun up => up.2.foldlM (step find) up.1 := by
    refine Option.bind_congr fun up hup => ?_
    exact foldlM_step_agreesOff hfind (fun h => hnames (subset_of_ascend hup h)) up.1
  obtain ⟨rooted, segments⟩ := path
  unfold target?
  cases rooted with
  | true => rfl
  | false =>
    simp only [Bool.false_eq_true, if_false]
    split
    · rfl
    · exact hrelative .root (List.not_mem_of_not_mem_cons hpath)
    · exact hrelative module (List.not_mem_of_not_mem_cons hpath)
    · refine Option.bind_congr fun parent _ => ?_
      exact hrelative parent (List.not_mem_of_not_mem_cons hpath)
    · obtain ⟨hfirst, hrest⟩ := List.ne_and_not_mem_of_not_mem_cons hpath
      rw [hfind module _ (Ne.symm hfirst)]
      split
      · exact hrelative _ hrest
      · rfl

end UsePath

/-! ## Tables -/

namespace SymbolTable

/-- A glob offers the same under other names, if the one name does not stand in its path. -/
theorem globMember?_agreesOff {find find' follow follow' : Finder} {name : String}
    (hfind : find.AgreesOff name find') (hfollow : follow.AgreesOff name follow')
    {module : ItemPath} {other : String} (hother : other ≠ name) {binding : Import}
    (hpath : name ∉ binding.path.segments) :
    globMember? find' follow' module other binding =
      globMember? find follow module other binding := by
  cases binding with
  | named bound path => rfl
  | glob path =>
    have htarget : path.target? find' module = path.target? find module :=
      UsePath.target?_agreesOff hfind hpath module
    rw [globMember?, globMember?, htarget]
    refine Option.bind_congr fun target _ => ?_
    rw [hfollow target other hother]

/-- Whether a table has what another one has, and perhaps declarations and named imports of one
more name, which no import path of the other one mentions. -/
structure ExtendsAt (table table' : SymbolTable) (name : String) : Prop where
  declares : ∀ module other, other ≠ name →
    table'.declares module other = table.declares module other
  imports : ∀ module, ∃ more, table'.importsOf module = table.importsOf module ++ more ∧
    ∀ binding ∈ more, ∃ path, binding = .named name path
  paths : ∀ i ∈ table.imports, name ∉ i.binding.path.segments

namespace ExtendsAt

variable {table table' : SymbolTable} {name : String}

/-- More imports of one name answer nothing about other names. -/
theorem findSome?_eq_none {α : Type} {f : Import → Option α} {more : List Import}
    (hmore : ∀ binding ∈ more, ∃ path, binding = .named name path)
    (hf : ∀ path, f (.named name path) = none) : more.findSome? f = none := by
  rw [List.findSome?_eq_none_iff]
  intro binding hbinding
  obtain ⟨path, rfl⟩ := hmore binding hbinding
  exact hf path

/-- Other names mean the same, if they do in import paths and in glob targets. -/
theorem lookupBy_agreesOff (h : table.ExtendsAt table' name) {find find' follow follow' : Finder}
    (hfind : find.AgreesOff name find') (hfollow : follow.AgreesOff name follow') :
    (table.lookupBy find follow).AgreesOff name (table'.lookupBy find' follow') := by
  intro module other hother
  have hpath : ∀ binding ∈ table.importsOf module, name ∉ binding.path.segments := by
    intro binding hbinding
    obtain ⟨i, hi, rfl⟩ := exists_import_of_mem_importsOf hbinding
    exact h.paths i hi
  obtain ⟨more, himports, hmore⟩ := h.imports module
  have hnamed : more.findSome? (Import.pathOf? other) = none :=
    findSome?_eq_none hmore fun path => by simp [Import.pathOf?, Ne.symm hother]
  have hglobs : more.findSome? (globMember? find' follow' module other) = none :=
    findSome?_eq_none hmore fun path => rfl
  rw [SymbolTable.lookupBy_eq, SymbolTable.lookupBy_eq, h.declares module other hother, himports,
    List.findSome?_append, hnamed, List.findSome?_append, hglobs, Option.or_none, Option.or_none]
  split
  · rfl
  · split
    · rename_i path hfound
      obtain ⟨binding, hbinding, hnamed⟩ := List.exists_of_findSome?_eq_some hfound
      refine UsePath.target?_agreesOff hfind ?_ module
      cases binding with
      | named bound path' =>
        rw [Import.pathOf?] at hnamed
        split at hnamed
        · obtain rfl := Option.some.inj hnamed
          exact hpath _ hbinding
        · cases hnamed
      | glob path' => cases hnamed
    · rw [← List.head?_filterMap, ← List.head?_filterMap]
      refine congrArg List.head? (List.filterMap_congr fun binding hbinding => ?_)
      exact globMember?_agreesOff hfind hfollow hother (hpath binding hbinding)

/-- Other names mean the same within any number of steps. -/
theorem lookupWithin_agreesOff (h : table.ExtendsAt table' name) (n : Nat) :
    (table.lookupWithin n).AgreesOff name (table'.lookupWithin n) := by
  induction n using Nat.strongRecOn with
  | ind n ih =>
    cases n with
    | zero => exact fun _ _ _ => rfl
    | succ n =>
      rw [lookupWithin_succ, lookupWithin_succ]
      exact h.lookupBy_agreesOff (ih (n - 1) (by omega)) (ih n (by omega))

end ExtendsAt

end SymbolTable

end ServiceDispatch
