import Mathlib.Tactic.ByContra
import ServiceDispatch.Proofs.Results
import ServiceDispatch.SymbolTable.Resolve

/-!
# The limit of a lookup

A lookup that gives up says the same as one that finds nothing. Three places go on from there:
the path of an import whose first name is unknown leads to an external crate, a glob that offers
nothing gives way to the next one, and an unknown name in a type falls back to what is known
everywhere. More steps can change an answer at these places, and nowhere else.
-/

namespace ServiceDispatch

/-- Whether a finder keeps the answer of another one for a name in a module. -/
def Finder.KeepsAt (find find' : Finder) (module : ItemPath) (name : String) : Prop :=
  ∀ answer, find module name = some answer → find' module name = some answer

/-- Whether a finder keeps all answers of another one. -/
def Finder.Keeps (find find' : Finder) : Prop :=
  ∀ module name answer, find module name = some answer → find' module name = some answer

/-- Whether a name at the front of a path is looked up in the module. -/
def IsPlainName (name : String) : Prop := name ≠ "crate" ∧ name ≠ "self" ∧ name ≠ "super"

instance (name : String) : Decidable (IsPlainName name) := inferInstanceAs (Decidable (_ ∧ _))

/-- No external path lies in the crate, since it is rooted. -/
theorem ItemPath.isCrateLocal_external (names : List String) :
    (ItemPath.external names).isCrateLocal = false := by
  have hcolon (text : String) : ("::" ++ text).toList = ':' :: ':' :: text.toList := by simp
  have hne : ItemPath.external names ≠ .root := by
    intro heq
    have htext := congrArg (fun p : ItemPath => p.text.toList) heq
    rw [external, hcolon] at htext
    exact nomatch (List.cons.inj htext).1
  have htext : ((ItemPath.external names).text == "crate") = false :=
    beq_eq_false_iff_ne.mpr fun heq => hne (congrArg ItemPath.mk heq)
  rw [isCrateLocal, htext, Bool.false_or, external, hcolon]
  rfl

namespace UsePath

/-- The lookups along the steps of a path. Behind some of the steps the next name is looked up in
the module of the crate that they lead to. -/
def AsksAlong (find : Finder) (base : ItemPath) (segments : List String) (module : ItemPath)
    (name : String) : Prop :=
  ∃ front back, segments = front ++ name :: back ∧ front.foldlM (step find) base = some module ∧
    module.isCrateLocal

/-- Where a relative path begins, with the names that are left. -/
def start? (find : Finder) (module : ItemPath) : List String → Option (ItemPath × List String)
  | [] => none
  | "crate" :: rest => some (.root, rest)
  | "self" :: rest => some (module, rest)
  | "super" :: rest => module.parent?.map (·, rest)
  | first :: rest => (find module first).map (·, rest)

/-- The lookups that a relative path makes in a module: that of its first name, and those along the
names that are left, before or after each further `super`. -/
inductive Asks (find : Finder) (scope : ItemPath) :
    List String → ItemPath → String → Prop where
  | first {first : String} {rest : List String} (hplain : IsPlainName first) :
      Asks find scope (first :: rest) scope first
  | below {names rest : List String} {base module : ItemPath} {name : String}
      (hstart : start? find scope names = some (base, rest))
      (halong : AsksAlong find base rest module name) : Asks find scope names module name
  | above {names rest : List String} {base module : ItemPath} {name : String}
      {up : ItemPath × List String} (hstart : start? find scope names = some (base, rest))
      (hup : ascend base rest = some up) (halong : AsksAlong find up.1 up.2 module name) :
      Asks find scope names module name

/-- A path with a plain first name begins where that name leads to. -/
theorem start?_of_plain {find : Finder} {module base : ItemPath} {first : String}
    (hplain : IsPlainName first) (hfirst : find module first = some base) (rest : List String) :
    start? find module (first :: rest) = some (base, rest) := by
  obtain ⟨hcrate, hself, hsuper⟩ := hplain
  unfold start?
  split
  · rename_i heq
    exact nomatch heq
  · rename_i heq
    exact absurd (List.cons.inj heq).1 hcrate
  · rename_i heq
    exact absurd (List.cons.inj heq).1 hself
  · rename_i heq
    exact absurd (List.cons.inj heq).1 hsuper
  · rename_i heq
    obtain ⟨rfl, rfl⟩ := List.cons.inj heq
    rw [hfirst]
    rfl

variable {find find' : Finder}

/-- A path step leads to the same if the answer that it asks for is kept. -/
theorem step_keeps {base answer : ItemPath} {segment : String}
    (hfind : base.isCrateLocal → find.KeepsAt find' base segment)
    (hstep : step find base segment = some answer) : step find' base segment = some answer := by
  unfold step at hstep ⊢
  by_cases hlocal : base.isCrateLocal
  · rw [if_pos hlocal] at hstep ⊢
    exact hfind hlocal _ hstep
  · rw [if_neg hlocal] at hstep ⊢
    exact hstep

/-- Path steps lead to the same if the answers that they ask for are kept. -/
theorem foldlM_step_keeps {base answer : ItemPath} {segments : List String}
    (hfind : ∀ module name, AsksAlong find base segments module name →
      find.KeepsAt find' module name)
    (hsteps : segments.foldlM (step find) base = some answer) :
    segments.foldlM (step find') base = some answer := by
  induction segments generalizing base with
  | nil => exact hsteps
  | cons segment segments ih =>
    rw [List.foldlM_cons] at hsteps ⊢
    obtain ⟨next, hnext, hrest⟩ := Option.bind_eq_some_iff.mp hsteps
    have hnext' : step find' base segment = some next :=
      step_keeps (fun hlocal => hfind base segment ⟨[], segments, rfl, rfl, hlocal⟩) hnext
    have hlater (module : ItemPath) (name : String)
        (halong : AsksAlong find next segments module name) : find.KeepsAt find' module name := by
      obtain ⟨front, back, rfl, hfront, hlocal⟩ := halong
      refine hfind module name ⟨segment :: front, back, rfl, ?_, hlocal⟩
      rw [List.foldlM_cons, hnext]
      exact hfront
    exact Option.bind_eq_some_iff.mpr ⟨next, hnext', ih hlater hrest⟩

/-- An import path leads to the same if the answers that it asks for are kept, unless its first name
was unknown and it was therefore taken for a path of an external crate. -/
theorem target?_keeps {module answer : ItemPath} {path : UsePath}
    (hfind : path.rooted = false → ∀ asked name, Asks find module path.segments asked name →
      find.KeepsAt find' asked name)
    (htarget : path.target? find module = some answer) :
    path.target? find' module = some answer ∨
      path.rooted = false ∧ answer = .external path.segments ∧
        ∃ first rest, path.segments = first :: rest ∧ IsPlainName first ∧
          find module first = none := by
  obtain ⟨rooted, segments⟩ := path
  unfold target? at htarget ⊢
  cases rooted with
  | true => exact .inl htarget
  | false =>
    have hasked := hfind rfl
    have hrelative {base : ItemPath} {rest : List String}
        (hstart : start? find module segments = some (base, rest))
        (h : ((ascend base rest).bind fun up => up.2.foldlM (step find) up.1) = some answer) :
        ((ascend base rest).bind fun up => up.2.foldlM (step find') up.1) = some answer := by
      obtain ⟨up, hup, hsteps⟩ := Option.bind_eq_some_iff.mp h
      refine Option.bind_eq_some_iff.mpr ⟨up, hup, foldlM_step_keeps ?_ hsteps⟩
      exact fun asked name halong => hasked asked name (.above hstart hup halong)
    simp only [Bool.false_eq_true, if_false] at htarget ⊢
    split at htarget
    · exact nomatch htarget
    · exact .inl (hrelative rfl htarget)
    · exact .inl (hrelative rfl htarget)
    · rename_i rest
      obtain ⟨parent, hparent, hrest⟩ := Option.bind_eq_some_iff.mp htarget
      have hstart : start? find module ("super" :: rest) = some (parent, rest) := by
        rw [start?, hparent]
        rfl
      exact .inl (Option.bind_eq_some_iff.mpr ⟨parent, hparent, hrelative hstart hrest⟩)
    · rename_i first rest hcrate hself hsuper
      have hplain : IsPlainName first := ⟨hcrate, hself, hsuper⟩
      cases hfirst : find module first with
      | none =>
        rw [hfirst] at htarget
        exact .inr ⟨trivial, (Option.some.inj htarget).symm, first, rest, rfl, hplain, hfirst⟩
      | some base =>
        rw [hfirst] at htarget
        left
        rw [hasked _ _ (.first hplain) _ hfirst]
        exact hrelative (start?_of_plain hplain hfirst rest) htarget

/-- An import path whose plain first name is unknown leads to an external crate. -/
theorem target?_of_unknown {module : ItemPath} {path : UsePath} {first : String}
    {rest : List String} (hrooted : path.rooted = false) (hsegments : path.segments = first :: rest)
    (hplain : IsPlainName first) (hfirst : find module first = none) :
    path.target? find module = some (.external path.segments) := by
  obtain ⟨rooted, segments⟩ := path
  obtain ⟨hcrate, hself, hsuper⟩ := hplain
  dsimp only at hrooted hsegments
  subst hrooted hsegments
  unfold target?
  simp only [Bool.false_eq_true, if_false]
  rw [hfirst]

end UsePath

namespace SymbolTable

/-! ## Lookups within a number of steps -/

/-- Whether a name in a module means a declared item or child module. -/
def declares (table : SymbolTable) (module : ItemPath) (name : String) : Bool :=
  table.hasItem (module.join name) || table.hasModule (module.join name)

/-- The path of the named import that a name in a module means. -/
def namedImport? (table : SymbolTable) (module : ItemPath) (name : String) : Option UsePath :=
  if table.declares module name then none
  else (table.importsOf module).findSome? (Import.pathOf? name)

/-- What a glob import offers within a number of steps. -/
def globMemberWithin? (table : SymbolTable) (n : Nat) (module : ItemPath) (name : String) :
    Import → Option ItemPath :=
  globMember? (table.lookupWithin (n - 1)) (table.lookupWithin n) module name

/-- A lookup takes a step to follow a glob, and two to enter an import path. -/
theorem lookupWithin_succ (table : SymbolTable) (n : Nat) :
    table.lookupWithin (n + 1) =
      table.lookupBy (table.lookupWithin (n - 1)) (table.lookupWithin n) := by
  cases n <;> rfl

/-- What a lookup asks, one thing after the other: declared names, named imports, and globs in their
order. -/
theorem lookupBy_eq (table : SymbolTable) (find follow : Finder) (module : ItemPath)
    (name : String) :
    table.lookupBy find follow module name =
      if table.declares module name then some (module.join name)
      else
        match (table.importsOf module).findSome? (Import.pathOf? name) with
        | some path => path.target? find module
        | none => (table.importsOf module).findSome? (globMember? find follow module name) :=
  rfl

/-- A declared name means its item or module, within any number of steps but none. -/
theorem lookupWithin_of_declares {table : SymbolTable} {module : ItemPath} {name : String}
    (hname : table.declares module name) (n : Nat) :
    table.lookupWithin (n + 1) module name = some (module.join name) := by
  rw [lookupWithin_succ, lookupBy_eq, if_pos hname]

/-- A name that is imported means the target of the import. -/
theorem lookupWithin_of_namedImport? {table : SymbolTable} {module : ItemPath} {name : String}
    {path : UsePath} (hpath : table.namedImport? module name = some path) (n : Nat) :
    table.lookupWithin (n + 1) module name = path.target? (table.lookupWithin (n - 1)) module := by
  unfold namedImport? at hpath
  split at hpath
  · exact nomatch hpath
  · rename_i hname
    rw [lookupWithin_succ, lookupBy_eq, if_neg hname, hpath]

/-- A named import is one of the imports of the module. -/
theorem mem_importsOf_of_namedImport? {table : SymbolTable} {module : ItemPath} {name : String}
    {path : UsePath} (hpath : table.namedImport? module name = some path) :
    .named name path ∈ table.importsOf module := by
  unfold namedImport? at hpath
  split at hpath
  · exact nomatch hpath
  · obtain ⟨binding, hbinding, hnamed⟩ := List.exists_of_findSome?_eq_some hpath
    cases binding with
    | named bound path' =>
      rw [Import.pathOf?] at hnamed
      split at hnamed
      · rename_i hbound
        rwa [← hbound, ← Option.some.inj hnamed]
      · exact nomatch hnamed
    | glob path' => exact nomatch hnamed

/-- A name that is neither declared nor imported by name means what the first glob offers. -/
theorem lookupWithin_of_globs {table : SymbolTable} {module : ItemPath} {name : String}
    (hname : table.declares module name = false) (hnamed : table.namedImport? module name = none)
    (n : Nat) :
    table.lookupWithin (n + 1) module name =
      (table.importsOf module).findSome? (table.globMemberWithin? n module name) := by
  rw [namedImport?, hname, if_neg Bool.false_ne_true] at hnamed
  rw [lookupWithin_succ, lookupBy_eq, hname, if_neg Bool.false_ne_true, hnamed]
  rfl

/-- A lookup finds nothing if the name is not declared, its named import leads nowhere if there is
one, and no glob offers it if there is none. -/
theorem lookupWithin_succ_eq_none_iff {table : SymbolTable} {n : Nat} {module : ItemPath}
    {name : String} :
    table.lookupWithin (n + 1) module name = none ↔
      table.declares module name = false ∧
      (∀ path, table.namedImport? module name = some path →
        path.target? (table.lookupWithin (n - 1)) module = none) ∧
      (table.namedImport? module name = none → ∀ binding ∈ table.importsOf module,
        table.globMemberWithin? n module name binding = none) := by
  cases hname : table.declares module name with
  | true =>
    rw [lookupWithin_of_declares hname]
    exact iff_of_false nofun fun h => nomatch h.1
  | false =>
    rw [eq_self, true_and]
    cases hnamed : table.namedImport? module name with
    | some path =>
      rw [lookupWithin_of_namedImport? hnamed]
      constructor
      · intro hnone
        exact ⟨fun other hother => Option.some.inj hother ▸ hnone, nofun⟩
      · intro hnone
        exact hnone.1 path rfl
    | none =>
      rw [lookupWithin_of_globs hname hnamed, List.findSome?_eq_none_iff]
      exact ⟨fun hglobs => ⟨nofun, fun _ => hglobs⟩, fun h => h.2 rfl⟩

/-! ## Paths in types -/

/-- Going up in a type and in an import path is the same. -/
theorem ascend_eq_ok {names : List String} {base : ItemPath} {up : ItemPath × List String} :
    ascend base names = .ok up ↔ UsePath.ascend base names = some up := by
  induction names generalizing base with
  | nil => exact ⟨fun h => congrArg some (Except.ok.inj h), fun h => congrArg _ (Option.some.inj h)⟩
  | cons name names ih =>
    by_cases hname : name = "super"
    · subst hname
      rw [ascend, UsePath.ascend]
      cases base.parent? with
      | none => exact ⟨(nomatch ·), (nomatch ·)⟩
      | some parent => exact ih
    · have hother : ascend base (name :: names) = .ok (base, name :: names) := by
        unfold ascend
        split
        · rename_i heq
          exact absurd (List.cons.inj heq).1 hname
        · rfl
      have hother' : UsePath.ascend base (name :: names) = some (base, name :: names) := by
        unfold UsePath.ascend
        split
        · rename_i heq
          exact absurd (List.cons.inj heq).1 hname
        · rfl
      rw [hother, hother']
      exact ⟨fun h => congrArg some (Except.ok.inj h), fun h => congrArg _ (Option.some.inj h)⟩

/-- A path leads to an answer if its steps do. -/
theorem descend_eq_ok {find : Finder} {base answer : ItemPath} {segments : List String} :
    descend find base segments = .ok answer ↔
      segments.foldlM (UsePath.step find) base = some answer := by
  induction segments generalizing base with
  | nil => exact ⟨fun h => congrArg some (Except.ok.inj h), fun h => congrArg _ (Option.some.inj h)⟩
  | cons segment segments ih =>
    rw [descend, List.foldlM_cons, List.foldlM_cons, member]
    cases UsePath.step find base segment with
    | none => exact ⟨(nomatch ·), (nomatch ·)⟩
    | some next => exact ih

/-- A path leads to the same if the answers that its steps ask for are kept. -/
theorem descend_keeps {find find' : Finder} {base answer : ItemPath} {segments : List String}
    (hfind : ∀ module name, UsePath.AsksAlong find base segments module name →
      find.KeepsAt find' module name)
    (hpath : descend find base segments = .ok answer) :
    descend find' base segments = .ok answer :=
  descend_eq_ok.mpr (UsePath.foldlM_step_keeps hfind (descend_eq_ok.mp hpath))

/-- What a path means whose first name is not known in its module. -/
def meaningElsewhere (table : SymbolTable) (first : String) (rest : List String) :
    Except ResolveError ItemPath :=
  if rest.isEmpty then wellKnown first
  else if table.externCrates.contains first then .ok (.external (first :: rest))
  else .error (.unknownName first)

/-- A path in a type means the same if the answers that it asks for are kept, unless its first name
was unknown. -/
theorem resolveNamesBy_keeps {table : SymbolTable} {find find' : Finder} {scope answer : ItemPath}
    {rooted : Bool} {names : List String}
    (hfind : rooted = false → ∀ asked name, UsePath.Asks find scope names asked name →
      find.KeepsAt find' asked name)
    (hnames : table.resolveNamesBy find scope rooted names = .ok answer) :
    table.resolveNamesBy find' scope rooted names = .ok answer ∨
      rooted = false ∧ ∃ first rest, names = first :: rest ∧ IsPlainName first ∧
        find scope first = none ∧ table.meaningElsewhere first rest = .ok answer := by
  unfold resolveNamesBy at hnames ⊢
  cases names with
  | nil => exact nomatch hnames
  | cons first rest =>
    cases rooted with
    | true => exact .inl hnames
    | false =>
      have hasked := hfind rfl
      have hbelow {base : ItemPath} {back : List String}
          (hstart : UsePath.start? find scope (first :: rest) = some (base, back))
          (h : descend find base back = .ok answer) : descend find' base back = .ok answer :=
        descend_keeps (fun asked name halong => hasked asked name (.below hstart halong)) h
      simp only [Bool.false_eq_true, if_false] at hnames ⊢
      split at hnames
      · exact .inl (hbelow rfl hnames)
      · exact .inl (hbelow rfl hnames)
      · left
        obtain ⟨up, hup, hsteps⟩ := Results.bind_eq_ok_iff.mp hnames
        obtain ⟨parent, hparent, hascend⟩ := Option.bind_eq_some_iff.mp (ascend_eq_ok.mp hup)
        have hstart : UsePath.start? find scope ("super" :: rest) = some (parent, rest) := by
          rw [UsePath.start?, hparent]
          rfl
        refine Results.bind_eq_ok_iff.mpr ⟨up, hup, descend_keeps ?_ hsteps⟩
        exact fun asked name halong => hasked asked name (.above hstart hascend halong)
      · rename_i hcrate hself hsuper
        have hplain : IsPlainName first := ⟨hcrate, hself, hsuper⟩
        cases hfirst : find scope first with
        | none =>
          rw [hfirst] at hnames
          exact .inr ⟨trivial, first, rest, rfl, hplain, hfirst, hnames⟩
        | some base =>
          rw [hfirst] at hnames
          left
          rw [hasked _ _ (.first hplain) _ hfirst]
          exact hbelow (UsePath.start?_of_plain hplain hfirst rest) hnames

/-- A path whose plain first name is unknown means something elsewhere, if anything. -/
theorem resolveNamesBy_of_unknown {table : SymbolTable} {find : Finder} {scope : ItemPath}
    {first : String} (hplain : IsPlainName first) (hfirst : find scope first = none)
    (rest : List String) :
    table.resolveNamesBy find scope false (first :: rest) = table.meaningElsewhere first rest := by
  obtain ⟨hcrate, hself, hsuper⟩ := hplain
  unfold resolveNamesBy
  simp only [Bool.false_eq_true, if_false]
  rw [hfirst]
  rfl

/-! ## Misreadings -/

/-- A place where a lookup that gave up within `n` steps is read as the absence of a name, although
`n'` steps show something else there. -/
inductive Misreading (table : SymbolTable) (n n' : Nat) : Prop where
  /-- The first name of an imported path is taken for an external crate. -/
  | crateName {module : ItemPath} {name : String} {path : UsePath} {first : String}
      {rest : List String}
      (himport : table.namedImport? module name = some path) (hrooted : path.rooted = false)
      (hsegments : path.segments = first :: rest) (hplain : IsPlainName first)
      (hfirst : table.lookupWithin n module first = none)
      (hother : path.target? (table.lookupWithin n') module ≠ some (.external path.segments))
  /-- A glob is passed over. -/
  | glob {module : ItemPath} {name : String} {before after : List Import} {binding : Import}
      {answer other : ItemPath}
      (hname : table.declares module name = false)
      (hnamed : table.namedImport? module name = none)
      (himports : table.importsOf module = before ++ binding :: after)
      (hbefore : ∀ passed ∈ before, table.globMemberWithin? n module name passed = none)
      (hanswer : table.globMemberWithin? n module name binding = some answer)
      (hearlier : before.findSome? (table.globMemberWithin? n' module name) = some other)
      (hother : other ≠ answer)
  /-- The first name of a path in a type is taken for one that is known everywhere. -/
  | knownName {scope : ItemPath} {first : String} {rest : List String} {answer : ItemPath}
      (hplain : IsPlainName first) (hfirst : table.lookupWithin n scope first = none)
      (hanswer : table.meaningElsewhere first rest = .ok answer)
      (hother : table.resolveNamesBy (table.lookupWithin n') scope false (first :: rest) ≠
        .ok answer)

/-- Whether all answers within `n` steps are the answers within `n'` steps. -/
structure AnswersLast (table : SymbolTable) (n n' : Nat) : Prop where
  lookup : (table.lookupWithin n).Keeps (table.lookupWithin n')
  names : ∀ scope rooted names answer,
    table.resolveNamesBy (table.lookupWithin n) scope rooted names = .ok answer →
    table.resolveNamesBy (table.lookupWithin n') scope rooted names = .ok answer
  item : ∀ scope type answer,
    table.resolveItemBy? (table.lookupWithin n) scope type = some answer →
    table.resolveItemBy? (table.lookupWithin n') scope type = some answer

/-! ## Lookups that a lookup makes -/

/-- A lookup of a name in a module within a number of steps. -/
structure Query where
  steps : Nat
  module : ItemPath
  name : String

/-- The lookups that a lookup makes itself, each with the steps that are left for it. -/
inductive Asks (table : SymbolTable) : Query → Query → Prop where
  /-- The path of the named import is followed. -/
  | importPath {n : Nat} {module asked : ItemPath} {name segment : String} {path : UsePath}
      (hnamed : table.namedImport? module name = some path) (hrooted : path.rooted = false)
      (hasks : UsePath.Asks (table.lookupWithin (n - 1)) module path.segments asked segment) :
      Asks table ⟨n + 1, module, name⟩ ⟨n - 1, asked, segment⟩
  /-- The path of a glob is followed. -/
  | globPath {n : Nat} {module asked : ItemPath} {name segment : String} {path : UsePath}
      (hname : table.declares module name = false)
      (hnamed : table.namedImport? module name = none) (hglob : .glob path ∈ table.importsOf module)
      (hrooted : path.rooted = false)
      (hasks : UsePath.Asks (table.lookupWithin (n - 1)) module path.segments asked segment) :
      Asks table ⟨n + 1, module, name⟩ ⟨n - 1, asked, segment⟩
  /-- The name is looked up in the module that a glob leads to. -/
  | globMember {n : Nat} {module target : ItemPath} {name : String} {path : UsePath}
      (hname : table.declares module name = false)
      (hnamed : table.namedImport? module name = none) (hglob : .glob path ∈ table.importsOf module)
      (htarget : path.target? (table.lookupWithin (n - 1)) module = some target)
      (hlocal : target.isCrateLocal) : Asks table ⟨n + 1, module, name⟩ ⟨n, target, name⟩

/-- A lookup within `n + 1` steps that reads the absence of a name off a lookup that gave up, where
`n' + 1` steps show something else. -/
inductive MisreadAt (table : SymbolTable) (n n' : Nat) (module : ItemPath) (name : String) :
    Prop where
  /-- The first name of the imported path is taken for an external crate. -/
  | crateName {path : UsePath} {first : String} {rest : List String}
      (himport : table.namedImport? module name = some path) (hrooted : path.rooted = false)
      (hsegments : path.segments = first :: rest) (hplain : IsPlainName first)
      (hfirst : table.lookupWithin (n - 1) module first = none)
      (hother : path.target? (table.lookupWithin (n' - 1)) module ≠
        some (.external path.segments))
  /-- A glob is passed over. -/
  | glob {before after : List Import} {binding : Import} {answer other : ItemPath}
      (hname : table.declares module name = false)
      (hnamed : table.namedImport? module name = none)
      (himports : table.importsOf module = before ++ binding :: after)
      (hbefore : ∀ passed ∈ before, table.globMemberWithin? n module name passed = none)
      (hanswer : table.globMemberWithin? n module name binding = some answer)
      (hearlier : before.findSome? (table.globMemberWithin? n' module name) = some other)
      (hother : other ≠ answer)

variable {table : SymbolTable} {n n' : Nat} {module : ItemPath} {name : String}

/-- What a lookup misreads is a misreading with the steps that are left for it. -/
theorem MisreadAt.misreading (hread : table.MisreadAt n n' module name) :
    table.Misreading (n - 1) (n' - 1) ∨ table.Misreading n n' := by
  cases hread with
  | crateName himport hrooted hsegments hplain hfirst hother =>
    exact .inl (.crateName himport hrooted hsegments hplain hfirst hother)
  | glob hname hnamed himports hbefore hanswer hearlier hother =>
    exact .inr (.glob hname hnamed himports hbefore hanswer hearlier hother)

/-- A member that a glob offers lasts if the answers that were asked for do, since the target of the
glob lies in the crate and was therefore not taken for an external path. -/
theorem globMemberWithin?_keeps {answer : ItemPath} {path : UsePath}
    (hpath : path.rooted = false → ∀ asked segment,
      UsePath.Asks (table.lookupWithin (n - 1)) module path.segments asked segment →
        (table.lookupWithin (n - 1)).KeepsAt (table.lookupWithin (n' - 1)) asked segment)
    (hglob : ∀ target : ItemPath, path.target? (table.lookupWithin (n - 1)) module = some target →
      target.isCrateLocal → (table.lookupWithin n).KeepsAt (table.lookupWithin n') target name)
    (hanswer : table.globMemberWithin? n module name (.glob path) = some answer) :
    table.globMemberWithin? n' module name (.glob path) = some answer := by
  obtain ⟨target, htarget, hmember⟩ := Option.bind_eq_some_iff.mp hanswer
  have hlocal : target.isCrateLocal := by
    by_contra hlocal
    rw [if_neg hlocal] at hmember
    exact nomatch hmember
  have htarget' : path.target? (table.lookupWithin (n' - 1)) module = some target := by
    rcases UsePath.target?_keeps hpath htarget with hkept | ⟨-, hexternal, -⟩
    · exact hkept
    · rw [hexternal, ItemPath.isCrateLocal_external] at hlocal
      exact nomatch hlocal
  rw [if_pos hlocal] at hmember
  refine Option.bind_eq_some_iff.mpr ⟨target, htarget', ?_⟩
  rw [if_pos hlocal]
  exact hglob target htarget hlocal _ hmember

/-- A lookup that misreads nothing keeps its answer with one more step, if the lookups that it makes
do so with the steps that are left for them. -/
theorem lookupWithin_succ_keeps
    (hpath : ∀ asked segment, table.Asks ⟨n + 1, module, name⟩ ⟨n - 1, asked, segment⟩ →
      (table.lookupWithin (n - 1)).KeepsAt (table.lookupWithin (n' - 1)) asked segment)
    (hglob : ∀ target, table.Asks ⟨n + 1, module, name⟩ ⟨n, target, name⟩ →
      (table.lookupWithin n).KeepsAt (table.lookupWithin n') target name)
    (hread : ¬ table.MisreadAt n n' module name) :
    (table.lookupWithin (n + 1)).KeepsAt (table.lookupWithin (n' + 1)) module name := by
  intro answer hanswer
  cases hname : table.declares module name with
  | true =>
    rw [lookupWithin_of_declares hname] at hanswer ⊢
    exact hanswer
  | false =>
    cases hnamed : table.namedImport? module name with
    | some path =>
      rw [lookupWithin_of_namedImport? hnamed] at hanswer ⊢
      have hasked (hrooted : path.rooted = false) (asked : ItemPath) (segment : String)
          (h : UsePath.Asks (table.lookupWithin (n - 1)) module path.segments asked segment) :
          (table.lookupWithin (n - 1)).KeepsAt (table.lookupWithin (n' - 1)) asked segment :=
        hpath asked segment (.importPath hnamed hrooted h)
      rcases UsePath.target?_keeps hasked hanswer with hkept | hunknown
      · exact hkept
      · obtain ⟨hrooted, rfl, first, rest, hsegments, hplain, hfirst⟩ := hunknown
        by_contra hother
        exact hread (.crateName hnamed hrooted hsegments hplain hfirst hother)
    | none =>
      rw [lookupWithin_of_globs hname hnamed] at hanswer ⊢
      obtain ⟨before, binding, after, himports, hbinding, hbefore⟩ :=
        List.findSome?_eq_some_iff.mp hanswer
      have hkept : table.globMemberWithin? n' module name binding = some answer := by
        cases binding with
        | named bound path => exact nomatch hbinding
        | glob path =>
          have hmem : .glob path ∈ table.importsOf module := by
            rw [himports]
            exact List.mem_append_right _ List.mem_cons_self
          refine globMemberWithin?_keeps ?_ ?_ hbinding
          · exact fun hrooted asked segment h =>
              hpath asked segment (.globPath hname hnamed hmem hrooted h)
          · exact fun target htarget hlocal =>
              hglob target (.globMember hname hnamed hmem htarget hlocal)
      rw [himports, List.findSome?_append, List.findSome?_cons, hkept]
      cases hearlier : before.findSome? (table.globMemberWithin? n' module name) with
      | none => rfl
      | some other =>
        by_contra hother
        refine hread (.glob hname hnamed himports hbefore hbinding hearlier ?_)
        exact fun heq => hother (congrArg some heq)

/-- Without misreadings more steps keep the answers of lookups. The induction is on the steps, of
which the path of an import takes two and a glob takes one. -/
theorem lookupWithin_keeps (hread : ∀ n n', n ≤ n' → ¬ table.Misreading n n') (hn : n ≤ n') :
    (table.lookupWithin n).Keeps (table.lookupWithin n') := by
  induction n using Nat.strongRecOn generalizing n' with
  | ind n ih =>
    cases n with
    | zero =>
      intro module name answer hanswer
      exact nomatch hanswer
    | succ n =>
      obtain ⟨n', rfl⟩ := Nat.exists_eq_add_of_le' (Nat.le_trans (Nat.le_add_left 1 n) hn)
      have hpath : (table.lookupWithin (n - 1)).Keeps (table.lookupWithin (n' - 1)) :=
        ih (n - 1) (by omega) (by omega)
      have hglob : (table.lookupWithin n).Keeps (table.lookupWithin n') :=
        ih n (by omega) (by omega)
      intro module name
      refine lookupWithin_succ_keeps (fun _ _ _ => hpath _ _) (fun _ _ => hglob _ _) fun hat => ?_
      rcases hat.misreading with hearlier | hnow
      · exact hread _ _ (by omega) hearlier
      · exact hread _ _ (by omega) hnow

/-- What a lookup misreads changes with more steps, which give the path in the crate. -/
theorem MisreadAt.not_keepsAt (hread : table.MisreadAt n n' module name) :
    ¬ (table.lookupWithin (n + 1)).KeepsAt (table.lookupWithin (n' + 1)) module name := by
  intro hkeeps
  cases hread with
  | @crateName path first rest himport hrooted hsegments hplain hfirst hother =>
    have hexternal : table.lookupWithin (n + 1) module name = some (.external path.segments) := by
      rw [lookupWithin_of_namedImport? himport]
      exact UsePath.target?_of_unknown hrooted hsegments hplain hfirst
    have hkept := hkeeps _ hexternal
    rw [lookupWithin_of_namedImport? himport] at hkept
    exact hother hkept
  | @glob before after binding answer other hname hnamed himports hbefore hanswer hearlier hother =>
    have hfound : table.lookupWithin (n + 1) module name = some answer := by
      rw [lookupWithin_of_globs hname hnamed]
      exact List.findSome?_eq_some_iff.mpr ⟨before, binding, after, himports, hanswer, hbefore⟩
    have hkept := hkeeps _ hfound
    rw [lookupWithin_of_globs hname hnamed, himports, List.findSome?_append, hearlier,
      Option.some_or] at hkept
    exact hother (Option.some.inj hkept)

/-! ## Answers that last -/

/-- A type is the same item if its path, in case it is one, means the same. -/
theorem resolveItemBy?_keeps {find find' : Finder} {scope answer : ItemPath} {type : Ty}
    (hnames : ∀ rooted segments path, type = .path rooted segments →
      table.resolveNamesBy find scope rooted (segments.map Segment.name) = .ok path →
      table.resolveNamesBy find' scope rooted (segments.map Segment.name) = .ok path)
    (hanswer : table.resolveItemBy? find scope type = some answer) :
    table.resolveItemBy? find' scope type = some answer := by
  cases type with
  | path rooted segments =>
    rw [resolveItemBy?] at hanswer ⊢
    cases hpath : table.resolveNamesBy find scope rooted (segments.map Segment.name) with
    | error e =>
      rw [hpath] at hanswer
      exact nomatch hanswer
    | ok path =>
      rw [hpath] at hanswer
      rw [hnames rooted segments path rfl hpath]
      exact hanswer
  | _ => exact nomatch hanswer

/-- If the answers of lookups last, so do those for paths in types, unless the first name of a path
is misread. -/
theorem answersLast_of_keeps
    (hlookup : (table.lookupWithin n).Keeps (table.lookupWithin n'))
    (hread : ¬ table.Misreading n n') : table.AnswersLast n n' := by
  have hnames : ∀ scope rooted names answer,
      table.resolveNamesBy (table.lookupWithin n) scope rooted names = .ok answer →
      table.resolveNamesBy (table.lookupWithin n') scope rooted names = .ok answer := by
    intro scope rooted names answer hanswer
    rcases resolveNamesBy_keeps (fun _ _ _ _ => hlookup _ _) hanswer with hkept | hunknown
    · exact hkept
    · obtain ⟨rfl, first, rest, rfl, hplain, hfirst, helsewhere⟩ := hunknown
      by_contra hother
      exact hread (.knownName hplain hfirst helsewhere hother)
  refine ⟨hlookup, hnames, fun scope type answer => resolveItemBy?_keeps ?_⟩
  exact fun rooted segments path _ => hnames _ _ _ _

/-- After a misreading an answer does not last. An import is read two steps before the first name of
its path, a glob one step before its members. -/
theorem Misreading.not_answersLast (hread : table.Misreading n n') (hn : n ≤ n') :
    ∃ k k', k ≤ k' ∧ ¬ table.AnswersLast k k' := by
  cases hread with
  | crateName himport hrooted hsegments hplain hfirst hother =>
    have hat : table.MisreadAt (n + 1) (n' + 1) _ _ :=
      .crateName himport hrooted hsegments hplain hfirst hother
    exact ⟨n + 2, n' + 2, by omega, fun hlast => hat.not_keepsAt (hlast.lookup _ _)⟩
  | glob hname hnamed himports hbefore hanswer hearlier hother =>
    have hat : table.MisreadAt n n' _ _ :=
      .glob hname hnamed himports hbefore hanswer hearlier hother
    exact ⟨n + 1, n' + 1, by omega, fun hlast => hat.not_keepsAt (hlast.lookup _ _)⟩
  | knownName hplain hfirst hanswer hother =>
    refine ⟨n, n', hn, fun hlast => hother (hlast.names _ _ _ _ ?_)⟩
    rw [resolveNamesBy_of_unknown hplain hfirst]
    exact hanswer

/-- More steps never change an answer, of a lookup or for a path in a type, exactly if no lookup
that gave up is misread. Both sides are about all pairs of step numbers;
`lasts_maxSteps_iff_not_isMisread` is about single lookups within the number of steps that
resolution takes. -/
theorem answersLast_iff_not_misreading (table : SymbolTable) :
    (∀ n n', n ≤ n' → table.AnswersLast n n') ↔ ∀ n n', n ≤ n' → ¬ table.Misreading n n' := by
  constructor
  · intro hlast n n' hn hread
    obtain ⟨k, k', hk, hnot⟩ := hread.not_answersLast hn
    exact hnot (hlast k k' hk)
  · intro hread n n' hn
    exact answersLast_of_keeps (lookupWithin_keeps hread hn) (hread n n' hn)

/-- Nine imports of the crate root, each of which renames the one before. -/
def renamings : SymbolTable where
  items := [⟨"crate::A"⟩]
  imports := [("A1", "A"), ("A2", "A1"), ("A3", "A2"), ("A4", "A3"), ("A5", "A4"), ("A6", "A5"),
    ("A7", "A6"), ("A8", "A7"), ("A9", "A8")].map fun (name, path) =>
      ⟨.root, .named name ⟨false, [path]⟩⟩

/-- The lookup of the ninth name gives up at the item, and its name is read as that of an external
crate. Two more steps find the item, which is declared in the crate. -/
theorem resolveNames_renamings :
    renamings.hasItem ⟨"crate::A"⟩ ∧
      renamings.resolveNames .root false ["A9"] = .ok ⟨"::A"⟩ ∧
      renamings.resolveNamesBy (renamings.lookupWithin (maxSteps + 2)) .root false ["A9"] =
        .ok ⟨"crate::A"⟩ :=
  ⟨rfl, rfl, rfl⟩

end SymbolTable

end ServiceDispatch
