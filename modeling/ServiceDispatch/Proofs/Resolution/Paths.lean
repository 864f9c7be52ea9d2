import Mathlib.Data.List.TakeWhile
import ServiceDispatch.Proofs.Resolution.Anchors
import ServiceDispatch.Proofs.Resolution.Parts

/-!
# Paths in resolved types

A path in a resolved type is a declared item or an external path, or it is a primitive type. The
other paths of the crate are refused. A name that is taken for a primitive type is not found in its
module; that it is not bound there at all needs that the lookup did not give up.
-/

namespace ServiceDispatch.SymbolTable

variable {P Q : String → Prop} {find : Finder} {table : SymbolTable}

/-- A name that is known everywhere is a primitive type, or it has an external path. -/
theorem wellKnown_eq_ok {name : String} {p : ItemPath} (hp : wellKnown name = .ok p) :
    name ∈ primitiveTypes ∧ p = ⟨name⟩ ∨ p ∈ preludeTypes.map Prod.snd := by
  unfold wellKnown at hp
  split at hp
  · rename_i hprimitive
    exact .inl ⟨List.contains_iff_mem.mp hprimitive, (Except.ok.inj hp).symm⟩
  · split at hp
    · rename_i path hpath
      obtain rfl := Except.ok.inj hp
      obtain ⟨before, after, hsplit, -⟩ := List.lookup_eq_some_iff.mp hpath
      rw [hsplit]
      exact .inr (List.mem_map.mpr ⟨_, List.mem_append_right _ List.mem_cons_self, rfl⟩)
    · exact nomatch hp

/-- A primitive type is known everywhere by its name, unless something else is bound there. -/
theorem wellKnown_of_mem_primitiveTypes {name : String} (hname : name ∈ primitiveTypes) :
    wellKnown name = .ok ⟨name⟩ := by
  rw [wellKnown, if_pos (List.contains_iff_mem.mpr hname)]

/-- The paths of the prelude are external, and their names are of every kind that their segments are
of. -/
theorem externalBy_of_mem_preludeTypes {p : ItemPath} (hp : p ∈ preludeTypes.map Prod.snd)
    (hnames : ∀ name ∈ p.segments, P name) : p.ExternalBy P := by
  have hexternal : ∀ p ∈ preludeTypes.map Prod.snd, p.segments ≠ [] ∧ p = .external p.segments := by
    decide
  obtain ⟨hne, heq⟩ := hexternal p hp
  exact ⟨p.segments, hne, hnames, heq⟩

/-- Steps from a path of the crate lead to an anchored path. The word `super` may stand before the
names of members if it is such a name itself, or is never found. -/
theorem descend_anchored (hfind : find.Anchors P) (hPQ : ∀ name, P name → Q name)
    (hsuper : Q "super" ∨ ∀ module : ItemPath, module.InCrate → find module "super" = none)
    {base p : ItemPath}
    (hbase : base.InCrate) {names : List String}
    (hnames : ∀ name ∈ names.dropWhile (· == "super"), Q name)
    (hp : descend find base names = .ok p) : p.Anchored Q := by
  have hsteps := descend_eq_ok.mp hp
  refine UsePath.foldlM_step_anchored hfind hPQ ?_ (.inl hbase) hsteps
  rcases hsuper with hsuper | hsuper
  · intro name hname
    rw [← List.takeWhile_append_dropWhile (p := (· == "super")) (l := names)] at hname
    rcases List.mem_append.mp hname with hfront | hback
    · have hword := List.mem_takeWhile_imp hfront
      rw [beq_iff_eq.mp hword]
      exact hsuper
    · exact hnames name hback
  · cases names with
    | nil => exact fun _ h => absurd h List.not_mem_nil
    | cons first rest =>
      by_cases hfirst : first = "super"
      · subst hfirst
        obtain ⟨next, hnext, -⟩ := Option.bind_eq_some_iff.mp hsteps
        rw [UsePath.step, if_pos hbase.isCrateLocal, hsuper base hbase] at hnext
        exact nomatch hnext
      · rwa [List.dropWhile_cons, beq_eq_false_iff_ne.mpr hfirst] at hnames

/-- What a path means whose first name is not found is anchored, or it is a primitive type. -/
theorem meaningElsewhere_anchored
    (hprelude : ∀ p ∈ preludeTypes.map Prod.snd, p.ExternalBy Q) {first : String}
    {rest : List String} (hnames : ∀ name ∈ first :: rest, Q name) {p : ItemPath}
    (hp : table.meaningElsewhere first rest = .ok p) :
    p.Anchored Q ∨ first ∈ primitiveTypes ∧ rest = [] ∧ p = ⟨first⟩ := by
  unfold meaningElsewhere at hp
  split at hp
  · rename_i hrest
    rcases wellKnown_eq_ok hp with ⟨hprimitive, hp⟩ | hknown
    · exact .inr ⟨hprimitive, List.isEmpty_iff.mp hrest, hp⟩
    · exact .inl (.inr (hprelude p hknown))
  · split at hp
    · obtain rfl := Except.ok.inj hp
      exact .inl (.inr ⟨first :: rest, List.cons_ne_nil _ _, hnames, rfl⟩)
    · exact nomatch hp

/-- What a path of names in a type means is anchored, or it is a primitive type whose name is not
found in the module. -/
theorem resolveNamesBy_anchored (hfind : find.Anchors P)
    (hP : ∀ name, P name → ':' ∉ name.toList) (hPQ : ∀ name, P name → Q name)
    (hsuper : Q "super" ∨ ∀ module : ItemPath, module.InCrate → find module "super" = none)
    (hprelude : ∀ p ∈ preludeTypes.map Prod.snd, p.ExternalBy Q) {scope p : ItemPath}
    (hscope : scope.InCrate) {rooted : Bool} {names : List String}
    (hnames : ∀ name ∈ UsePath.memberNames ⟨rooted, names⟩, Q name)
    (hp : table.resolveNamesBy find scope rooted names = .ok p) :
    p.Anchored Q ∨ rooted = false ∧ ∃ name ∈ primitiveTypes, names = [name] ∧ p = ⟨name⟩ ∧
      IsPlainName name ∧ find scope name = none := by
  cases names with
  | nil => exact nomatch hp
  | cons first rest =>
    unfold resolveNamesBy at hp
    cases rooted with
    | true =>
      obtain rfl := Except.ok.inj hp
      exact .inl (.inr ⟨first :: rest, List.cons_ne_nil _ _, hnames, rfl⟩)
    | false =>
      simp only [Bool.false_eq_true, if_false] at hp
      split at hp
      · exact .inl (descend_anchored hfind hPQ hsuper ItemPath.inCrate_root hnames hp)
      · exact .inl (descend_anchored hfind hPQ hsuper hscope hnames hp)
      · obtain ⟨up, hup, hp⟩ := Results.bind_eq_ok_iff.mp hp
        obtain ⟨hanchored, hrest⟩ := UsePath.ascend_anchored hP (.inl hscope) (ascend_eq_ok.mp hup)
        have hmembers : ∀ name ∈ up.2, Q name := by
          rw [hrest]
          exact hnames
        exact .inl (UsePath.foldlM_step_anchored hfind hPQ hmembers (hanchored.mono hPQ)
          (descend_eq_ok.mp hp))
      · rename_i hcrate hself hsuper'
        have hplain : IsPlainName first := ⟨hcrate, hself, hsuper'⟩
        rw [UsePath.memberNames_of_plain hplain] at hnames
        cases hfirst : find scope first with
        | some base =>
          rw [hfirst] at hp
          exact .inl (UsePath.foldlM_step_anchored hfind hPQ (List.forall_mem_cons.mp hnames).2
            ((hfind scope first base hscope hfirst).mono hPQ) (descend_eq_ok.mp hp))
        | none =>
          rw [hfirst] at hp
          rcases meaningElsewhere_anchored hprelude hnames hp with
            hanchored | ⟨hprimitive, rfl, hmeans⟩
          · exact .inl hanchored
          · exact .inr ⟨rfl, first, hprimitive, rfl, hmeans, hplain, hfirst⟩

/-- A path in a type that resolves means what its names mean, and it is an item if it lies in the
crate. -/
theorem resolveBase_eq_ok {scope : ItemPath} {whole : String} {rooted : Bool}
    {segments : List Segment} {p : ItemPath}
    (hp : table.resolveBase scope whole rooted segments = .ok p) :
    table.resolveNames scope rooted (segments.map Segment.name) = .ok p ∧
      (p.isCrateLocal → table.hasItem p) := by
  unfold resolveBase at hp
  dsimp only at hp
  split at hp
  · exact nomatch hp
  · obtain ⟨base, hbase, hp⟩ := Results.bind_eq_ok_iff.mp hp
    split at hp
    · exact nomatch hp
    · rename_i hitem
      obtain rfl := Except.ok.inj hp
      refine ⟨hbase, fun hlocal => ?_⟩
      rw [hlocal, Bool.true_and, Bool.not_eq_true, Bool.not_eq_false'] at hitem
      exact hitem

/-- A path in a type whose plain first name is known leads on from there. -/
theorem resolveNamesBy_of_known {scope base : ItemPath} {first : String}
    (hplain : IsPlainName first) (hfirst : find scope first = some base) (rest : List String) :
    table.resolveNamesBy find scope false (first :: rest) = descend find base rest := by
  obtain ⟨hcrate, hself, hsuper⟩ := hplain
  unfold resolveNamesBy
  simp only [Bool.false_eq_true, if_false]
  rw [hfirst]

/-- No primitive type is a path of the crate or an external path. -/
theorem not_anchored_of_mem_primitiveTypes {name : String} (hname : name ∈ primitiveTypes) :
    ¬ (ItemPath.mk name).Anchored P := by
  have hneither : ∀ name ∈ primitiveTypes, (ItemPath.mk name).isCrateLocal = false ∧
      (ItemPath.mk name).isRooted = false := by decide
  obtain ⟨hlocal, hrooted⟩ := hneither name hname
  rintro (hcrate | hexternal)
  · rw [hcrate.isCrateLocal] at hlocal
    exact nomatch hlocal
  · rw [hexternal.isRooted] at hrooted
    exact nomatch hrooted

/-- More steps find the name of a primitive type that was not found only if the lookup gave up and
is misread: what they find is no primitive type. -/
theorem lookupWithin_of_primitive (htable : table.WellNamed P)
    (hP : ∀ name, P name → ':' ∉ name.toList) {scope : ItemPath} (hscope : scope.InCrate)
    {name : String} (hname : name ∈ primitiveTypes) (hplain : IsPlainName name)
    (hfind : table.lookup scope name = none) (n : Nat) :
    table.lookupWithin n scope name = none ∨ table.Misreading maxSteps n := by
  cases hmore : table.lookupWithin n scope name with
  | none => exact .inl rfl
  | some q =>
    have hanchored : q.Anchored P := htable.lookupWithin_anchors hP n scope name q hscope hmore
    have hne : q ≠ ⟨name⟩ := by
      rintro rfl
      exact not_anchored_of_mem_primitiveTypes hname hanchored
    have hknown : table.meaningElsewhere name [] = .ok ⟨name⟩ :=
      wellKnown_of_mem_primitiveTypes hname
    refine .inr (.knownName hplain hfind hknown ?_)
    rw [resolveNamesBy_of_known hplain hmore]
    exact fun heq => hne (Except.ok.inj heq)

/-- What the paths in a resolved type are. -/
inductive Accounts (table : SymbolTable) (scope : ItemPath) : ItemPath → Prop where
  | item {p : ItemPath} (hitem : table.hasItem p) : table.Accounts scope p
  | external {p : ItemPath} (hrooted : p.isRooted) : table.Accounts scope p
  /-- More steps find the name in the module only if the lookup gave up and is misread. -/
  | primitive {name : String} (hname : name ∈ primitiveTypes)
      (hfind : table.lookup scope name = none)
      (hmore : ∀ n, maxSteps ≤ n →
        table.lookupWithin n scope name = none ∨ table.Misreading maxSteps n) :
      table.Accounts scope ⟨name⟩

/-- Whether a name has no separator in it. -/
def IsColonFree (name : String) : Prop := ':' ∉ name.toList

/-- A path in a type of a module of the crate is accounted for. -/
theorem accounts_of_resolveBase (htable : table.WellNamed IsColonFree) {scope : ItemPath}
    (hscope : scope.InCrate) {whole : String} {rooted : Bool} {segments : List Segment}
    {p : ItemPath} (hp : table.resolveBase scope whole rooted segments = .ok p) :
    table.Accounts scope p := by
  obtain ⟨hnames, hitem⟩ := resolveBase_eq_ok hp
  have hanchors := htable.lookupWithin_anchors fun _ => id
  have hprelude : ∀ p ∈ preludeTypes.map Prod.snd, p.ExternalBy fun _ => True :=
    fun p hp => externalBy_of_mem_preludeTypes hp fun _ _ => trivial
  rcases resolveNamesBy_anchored (hanchors maxSteps) (fun _ => id) (fun _ _ => trivial)
      (.inl trivial) hprelude hscope (fun _ _ => trivial) hnames with hanchored | hprimitive
  · by_cases hlocal : p.isCrateLocal
    · exact .item (hitem hlocal)
    · exact .external (hanchored.externalBy hlocal).isRooted
  · obtain ⟨-, name, hname, -, rfl, hplain, hfirst⟩ := hprimitive
    exact .primitive hname hfirst fun n _ =>
      lookupWithin_of_primitive htable (fun _ => id) hscope hname hplain hfirst n

/-- Every path in a resolved type is accounted for: as a declared item, as a rooted path, or as a
primitive type whose name is found within no number of steps unless its lookup gave up and is
misread. A type resolves to declared items only. The hypothesis excludes names with colons in them,
which no source text has. -/
theorem accounts_of_resolveTy (htable : table.WellNamed IsColonFree) {scope : ItemPath}
    (hscope : scope.InCrate) (t : Ty) :
    (∀ r, table.resolveTy scope t = .ok r →
      ∃ u, ResolvedTy.ofTy (table.resolveBase scope) t = .ok u ∧ u.text = r ∧
        ∀ p, .path p ∈ u.parts → table.Accounts scope p) ∧
    ∀ p, table.resolveItem? scope t = some p → table.hasItem p := by
  refine ⟨fun r hr => ?_, fun p hp => ?_⟩
  · rw [resolveTy_eq] at hr
    obtain ⟨u, hu, htext⟩ := Results.map_eq_ok_iff.mp hr
    refine ⟨u, hu, htext, fun p hpart => ?_⟩
    obtain ⟨whole, rooted, segments, hbase, -⟩ := ResolvedTy.comesFrom_of_ofTy t u hu _ hpart
    exact accounts_of_resolveBase htable hscope hbase
  · unfold resolveItem? resolveItemBy? at hp
    split at hp
    · split at hp
      · split at hp
        · rename_i hitem
          obtain rfl := Option.some.inj hp
          exact hitem
        · exact nomatch hp
      · exact nomatch hp
    · exact nomatch hp

/-- An item with an import of its module. -/
def identifiers : SymbolTable where
  items := [⟨"crate::ids::UserId"⟩]
  modules := [⟨.root, .root⟩, ⟨⟨"crate::ids"⟩, .root⟩, ⟨⟨"crate::acc"⟩, .root⟩]
  imports := [⟨⟨"crate::acc"⟩, .glob ⟨false, ["super", "ids"]⟩⟩]

/-- The names in the table can be segments. -/
theorem wellNamed_identifiers : identifiers.WellNamed IsColonFree where
  items := by
    intro p hp _
    rw [List.mem_singleton.mp hp]
    exact ⟨["ids", "UserId"], by decide, rfl⟩
  modules := by
    intro m hm _
    simp only [identifiers, List.mem_cons, List.not_mem_nil, or_false] at hm
    rcases hm with rfl | rfl | rfl
    · exact ItemPath.inCrate_root
    · exact ⟨["ids"], by decide, rfl⟩
    · exact ⟨["acc"], by decide, rfl⟩
  imported := by
    intro i hi
    rw [List.mem_singleton.mp hi]
    unfold IsColonFree
    decide
  rooted := by
    intro i hi hrooted
    rw [List.mem_singleton.mp hi] at hrooted
    exact nomatch hrooted

/-- A type with an item, a type of the prelude and a primitive type. -/
theorem accounts_optionalUserId :
    let scope : ItemPath := ⟨"crate::acc"⟩
    let pair : Ty := .tuple [.path false [.mk "UserId" .none], .path false [.mk "u8" .none]] false
    let t : Ty := .path false [.mk "Option" (.angled false [.type pair] false)]
    let r := "::std::option::Option<(crate::ids::UserId, u8)>"
    identifiers.WellNamed IsColonFree ∧ scope.InCrate ∧ identifiers.resolveTy scope t = .ok r ∧
      (∃ u, ResolvedTy.ofTy (identifiers.resolveBase scope) t = .ok u ∧ u.text = r ∧
        ∀ p, .path p ∈ u.parts → identifiers.Accounts scope p) ∧
      ∀ p, identifiers.resolveItem? scope t = some p → identifiers.hasItem p := by
  have hscope : (ItemPath.mk "crate::acc").InCrate := ⟨["acc"], by decide, rfl⟩
  have haccounts := accounts_of_resolveTy wellNamed_identifiers hscope
  exact ⟨wellNamed_identifiers, hscope, rfl, (haccounts _).1 _ rfl, (haccounts _).2⟩

/-- Modules in which each imports all members of the next one. The last one declares an item with
the name of a primitive type. -/
def globs : SymbolTable :=
  let names := ["a", "b", "c", "d", "e", "f", "g", "h", "i", "j", "k", "l", "m", "n", "o", "p", "q"]
  { items := [⟨"crate::q::u8"⟩]
    modules := ⟨.root, .root⟩ :: names.map fun name => ⟨ItemPath.root.join name, .root⟩
    imports := (names.zip names.tail).map fun (name, next) =>
      ⟨ItemPath.root.join name, .glob ⟨false, ["crate", next]⟩⟩ }

/-- The lookup of the name gives up in the last module, and the name is read as that of the
primitive type. One more step finds the item, so that the name is bound in the module. -/
theorem resolveTy_globs :
    globs.hasItem ⟨"crate::q::u8"⟩ ∧
      (globs.resolveTy ⟨"crate::a"⟩ (.path false [.mk "u8" .none])).toOption = some "u8" ∧
      globs.lookupWithin (maxSteps + 1) ⟨"crate::a"⟩ "u8" = some ⟨"crate::q::u8"⟩ :=
  ⟨rfl, rfl, rfl⟩

end ServiceDispatch.SymbolTable
