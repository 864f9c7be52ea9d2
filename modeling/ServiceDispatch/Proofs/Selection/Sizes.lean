import ServiceDispatch.Proofs.Feed.Elsewhere
import ServiceDispatch.Proofs.Selection.Shapes

/-!
# Payloads without a size

Whether a payload type has a size is decided on its rendered text, which is read again. What is read
has the outermost form of the type: a type has no size if it is a slice, or the name `str` where the
lookup of this name finds nothing, in any number of parentheses. A type that only contains such a
type has a size.
-/

namespace ServiceDispatch

/-! ## Types without parentheses -/

namespace Ty

/-- A type without the parentheses around it. -/
def bare : Ty → Ty
  | .paren inner => inner.bare
  | t => t

/-- The name `str` as a type. -/
def str : Ty := .path false [.mk "str" .none]

end Ty

/-- Only the outermost form of a read text decides whether the text has a size. -/
theorem isUnsized_iff {text : String} {t : Ty} (ht : Ty.ofText? text = some t) :
    isUnsized text ↔
      (∃ elem, t = .slice elem) ∨ (∃ tokens, t = .object tokens) ∨ t = .str := by
  rw [isUnsized, ht]
  constructor
  · intro hunsized
    split at hunsized
    · rename_i elem heq
      exact .inl ⟨elem, Option.some.inj heq⟩
    · rename_i tokens heq
      exact .inr (.inl ⟨tokens, Option.some.inj heq⟩)
    · rename_i heq
      exact .inr (.inr (Option.some.inj heq))
    · exact nomatch hunsized
  · rintro (⟨elem, rfl⟩ | ⟨tokens, rfl⟩ | rfl) <;> rfl

namespace ItemPath

/-- A legible path is written as `str` only if it is this name. -/
theorem IsLegible.written_eq_str_iff {p : ItemPath} {first : String} {names : List String}
    (hp : p.IsLegible first names) : p.written .none = .str ↔ p = ⟨"str"⟩ := by
  rw [written, hp.segments, Ty.str, Ty.path.injEq]
  constructor
  · rintro ⟨hrooted, hsegments⟩
    have hnames := congrArg (List.map Segment.name) hsegments
    rw [Segment.map_name_ofNames] at hnames
    obtain ⟨rfl, rfl⟩ := List.cons.inj hnames
    have htext := hp.text
    rw [hrooted] at htext
    obtain ⟨text⟩ := p
    exact congrArg ItemPath.mk (String.toList_inj.mp htext)
  · rintro rfl
    have hsegments : (ItemPath.mk "str").segments = ["str"] := by decide
    rw [← hp.segments, hsegments]
    exact ⟨by decide, rfl⟩

/-- A path with arguments is not written as `str`, whatever its name is, since the arguments follow
the name in the text. -/
theorem written_angled_ne_str (p : ItemPath) (args : List TyArg) :
    p.written (.angled false args false) ≠ .str := by
  intro heq
  rw [written, Ty.str, Ty.path.injEq] at heq
  have hnames := congrArg (List.map Segment.name) heq.2
  rw [Segment.map_name_ofNames] at hnames
  rw [hnames] at heq
  simp [Segment.ofNames] at heq

end ItemPath

namespace SymbolTable

variable {table : SymbolTable} {scope : ItemPath}

/-- Whether a type of a module has no size: it is a slice, or the name `str` alone, and the lookup
of this name finds nothing. -/
def LacksSize (table : SymbolTable) (scope : ItemPath) (t : Ty) : Prop :=
  (∃ elem, t.bare = .slice elem) ∨ t.bare = .str ∧ table.lookup scope "str" = none

/-- Whether nothing binds a name in a module, as far as a lookup gets: the module does not declare
it, its named import leads nowhere if there is one, and no glob leads to a module of the crate that
binds it if there is none. -/
structure IsUnbound (table : SymbolTable) (scope : ItemPath) (name : String) : Prop where
  undeclared : table.hasItem (scope.join name) = false ∧ table.hasModule (scope.join name) = false
  named : ∀ path, table.namedImport? scope name = some path →
    path.target? (table.lookupWithin (maxSteps - 2)) scope = none
  globs : table.namedImport? scope name = none → ∀ path target,
    .glob path ∈ table.importsOf scope →
    path.target? (table.lookupWithin (maxSteps - 2)) scope = some target → target.isCrateLocal →
      table.lookupWithin (maxSteps - 1) target name = none

/-- A glob offers nothing under a name if it leads to no module of the crate that binds the name. -/
theorem globMemberWithin?_glob_eq_none_iff {n : Nat} {name : String} {path : UsePath} :
    table.globMemberWithin? n scope name (.glob path) = none ↔
      ∀ target, path.target? (table.lookupWithin (n - 1)) scope = some target →
        target.isCrateLocal → table.lookupWithin n target name = none := by
  refine Option.bind_eq_none_iff.trans (forall₂_congr fun target _ => ?_)
  by_cases hlocal : target.isCrateLocal
  · rw [if_pos hlocal]
    exact ⟨fun h _ => h, fun h => h hlocal⟩
  · rw [if_neg hlocal]
    exact iff_of_true rfl fun h => absurd h hlocal

/-- A lookup finds nothing exactly if nothing binds the name: the module does not declare it, and
its named import, or each of its globs if there is none, leads nowhere. -/
theorem lookup_eq_none_iff_isUnbound {name : String} :
    table.lookup scope name = none ↔ table.IsUnbound scope name := by
  have hlookup := @lookupWithin_succ_eq_none_iff table (maxSteps - 1) scope name
  rw [declares, Bool.or_eq_false_iff] at hlookup
  refine hlookup.trans ?_
  constructor
  · rintro ⟨hundeclared, hnamed, hglobs⟩
    refine ⟨hundeclared, hnamed, ?_⟩
    intro hnone path target hglob htarget hlocal
    exact globMemberWithin?_glob_eq_none_iff.mp (hglobs hnone _ hglob) target htarget hlocal
  · intro h
    refine ⟨h.undeclared, h.named, ?_⟩
    intro hnone binding hbinding
    cases binding with
    | named bound path => rfl
    | glob path =>
      refine globMemberWithin?_glob_eq_none_iff.mpr fun target htarget hlocal => ?_
      exact h.globs hnone path target hbinding htarget hlocal

/-- A type has no size if it is a slice, or the name `str` alone where nothing binds this name. -/
theorem lacksSize_iff_isUnbound {t : Ty} :
    table.LacksSize scope t ↔
      (∃ elem, t.bare = .slice elem) ∨ t.bare = .str ∧ table.IsUnbound scope "str" := by
  rw [LacksSize, lookup_eq_none_iff_isUnbound]

/-- Where a module declares an item or a module `str`, or imports it by a rooted path, this name is
a type with a size. -/
theorem not_lacksSize_of_bound {t : Ty} (ht : t.bare = .str)
    (hbound : table.declares scope "str" ∨
      ∃ segments, table.namedImport? scope "str" = some ⟨true, segments⟩) :
    ¬ table.LacksSize scope t := by
  rw [lacksSize_iff_isUnbound]
  rintro (⟨elem, hslice⟩ | ⟨-, hunbound⟩)
  · rw [ht] at hslice
    cases hslice
  · rcases hbound with hdeclared | ⟨segments, himport⟩
    · obtain ⟨hitem, hmodule⟩ := hunbound.undeclared
      rw [declares, hitem, hmodule] at hdeclared
      exact absurd hdeclared Bool.false_ne_true
    · exact absurd (hunbound.named _ himport) (Option.some_ne_none _)

/-- Where a module neither declares nor imports anything under the name `str` and has no globs, this
name is the primitive type, which has no size. -/
theorem lacksSize_of_unbound {t : Ty} (ht : t.bare = .str)
    (hdeclared : table.declares scope "str" = false)
    (himports : ∀ binding ∈ table.importsOf scope, ∃ name path,
      binding = .named name path ∧ name ≠ "str") : table.LacksSize scope t := by
  refine lacksSize_iff_isUnbound.mpr (.inr ⟨ht, Bool.or_eq_false_iff.mp hdeclared, ?_, ?_⟩)
  · intro path hnamed
    obtain ⟨name, path', heq, hne⟩ := himports _ (mem_importsOf_of_namedImport? hnamed)
    exact absurd (Import.named.inj heq).1.symm hne
  · intro _ path target hglob
    obtain ⟨name, path', heq, -⟩ := himports _ hglob
    exact nomatch heq

/-- A path that is a type means `str` only if it is this name alone. -/
theorem UsesIdentifiers.resolveBase_eq_str_iff (htable : table.UsesIdentifiers)
    (hscope : scope.InCrate) {whole : String} {rooted : Bool} {segments : List Segment}
    (hnames : ∀ name ∈ UsePath.memberNames ⟨rooted, segments.map Segment.name⟩, IsIdentifier name)
    {p : ItemPath} (hp : table.resolveBase scope whole rooted segments = .ok p) :
    p = ⟨"str"⟩ ↔ rooted = false ∧ segments.map Segment.name = ["str"] ∧
      table.lookup scope "str" = none := by
  have hstr : "str" ∈ primitiveTypes := by decide
  constructor
  · rintro rfl
    have hanchored : ¬ (ItemPath.mk "str").Anchored IsIdentifier :=
      not_anchored_of_mem_primitiveTypes hstr
    rcases htable.cases_of_resolveBase hscope hnames hp with hitem | hexternal |
      ⟨hrooted, name, -, hsegments, hname, hfind⟩
    · obtain ⟨names, -, hidentifiers, hpath⟩ := htable.items _ (List.contains_iff_mem.mp hitem)
      exact absurd (.inl ⟨names, fun name h => (hidentifiers name h).isSegment, hpath⟩) hanchored
    · exact absurd (.inr hexternal) hanchored
    · obtain rfl := ItemPath.mk.inj hname
      exact ⟨hrooted, hsegments, hfind⟩
  · rintro ⟨rfl, hsegments, hfind⟩
    have hmeaning := (resolveBase_eq_ok hp).1
    rw [hsegments, resolveNames, resolveNamesBy_of_unknown (by decide) hfind] at hmeaning
    exact (Except.ok.inj ((wellKnown_of_mem_primitiveTypes hstr).symm.trans hmeaning)).symm

/-- A path is the name `str` if this is its only name and its arguments resolve to none. -/
theorem path_eq_str_iff {base : ResolvedTy.BaseResolver} {whole : String} {rooted : Bool}
    {segments : List Segment} {args : Option (List ResolvedArg)}
    (hargs : ResolvedTy.ofLastArgs base whole segments = .ok args) :
    Ty.path rooted segments = .str ↔
      rooted = false ∧ segments.map Segment.name = ["str"] ∧ args = none := by
  rw [Ty.str, Ty.path.injEq]
  constructor
  · rintro ⟨hrooted, rfl⟩
    exact ⟨hrooted, rfl, (Except.ok.inj hargs).symm⟩
  · rintro ⟨hrooted, hnames, rfl⟩
    obtain ⟨⟨name, own⟩, rfl, rfl⟩ := List.map_eq_singleton_iff.mp hnames
    cases own with
    | none => exact ⟨hrooted, rfl⟩
    | angled turbofish args trailing =>
      obtain ⟨args', -, hsome⟩ := Results.map_eq_ok_iff.mp hargs
      exact nomatch hsome
    | call tokens => exact nomatch hargs

/-- The text of a path in a type is unsized exactly if the path is the name `str` and the lookup
finds nothing under it. -/
theorem UsesIdentifiers.isUnsized_text_path_iff (htable : table.UsesIdentifiers)
    (hscope : scope.InCrate) {rooted : Bool} {segments : List Segment}
    (ht : ∀ part ∈ (Ty.path rooted segments).parts, part.IsLegible) {u : ResolvedTy}
    (hu : ResolvedTy.ofTy (table.resolveBase scope) (.path rooted segments) = .ok u) :
    isUnsized u.text ↔ Ty.path rooted segments = .str ∧ table.lookup scope "str" = none := by
  have hread : Ty.ofText? u.text = some u.written :=
    (u.spellsType_text (htable.isLegible_of_mem_parts hscope ht hu)).ofText?
  have hnames : ∀ name ∈ UsePath.memberNames ⟨rooted, segments.map Segment.name⟩,
      IsIdentifier name := ht _ List.mem_cons_self
  rw [ResolvedTy.ofTy] at hu
  obtain ⟨p, hp, hu⟩ := Results.bind_eq_ok_iff.mp hu
  obtain ⟨args, hargs, hu⟩ := Results.bind_eq_ok_iff.mp hu
  rw [isUnsized_iff hread, path_eq_str_iff hargs]
  cases args with
  | none =>
    obtain rfl := Except.ok.inj hu
    obtain ⟨first, names, hlegible⟩ := htable.exists_isLegible_of_resolveBase hscope hnames hp
    have hwritten : p.written .none = .str ↔ rooted = false ∧
        segments.map Segment.name = ["str"] ∧ table.lookup scope "str" = none :=
      hlegible.written_eq_str_iff.trans (htable.resolveBase_eq_str_iff hscope hnames hp)
    simp only [ResolvedTy.written, hwritten]
    simp [ItemPath.written, and_assoc]
  | some args =>
    obtain rfl := Except.ok.inj hu
    have hne : p.written (.angled false (ResolvedTy.writtenOfArgs args) false) ≠ .str :=
      p.written_angled_ne_str _
    simp only [ResolvedTy.written, hne]
    simp [ItemPath.written]

/-- The rendered text of a type is unsized exactly if the type lacks a size. -/
theorem UsesIdentifiers.isUnsized_text_iff (htable : table.UsesIdentifiers)
    (hscope : scope.InCrate) : ∀ t : Ty, (∀ part ∈ t.parts, part.IsLegible) → ∀ u : ResolvedTy,
      ResolvedTy.ofTy (table.resolveBase scope) t = .ok u →
        (isUnsized u.text ↔ table.LacksSize scope t) := by
  intro t ht u hu
  have hread : Ty.ofText? u.text = some u.written :=
    (u.spellsType_text (htable.isLegible_of_mem_parts hscope ht hu)).ofText?
  cases t with
  | path rooted segments =>
    rw [htable.isUnsized_text_path_iff hscope ht hu]
    constructor
    · exact .inr
    · rintro (⟨elem, heq⟩ | hstr)
      · exact nomatch heq
      · exact hstr
  | paren inner => exact htable.isUnsized_text_iff hscope inner ht u hu
  | slice elem =>
    obtain ⟨elem', -, rfl⟩ := Results.map_eq_ok_iff.mp hu
    rw [isUnsized_iff hread]
    exact ⟨fun _ => .inl ⟨elem, rfl⟩, fun _ => .inl ⟨elem'.written, rfl⟩⟩
  | tuple elems trailing =>
    obtain ⟨elems', -, rfl⟩ := Results.map_eq_ok_iff.mp hu
    rw [isUnsized_iff hread]
    simp [LacksSize, Ty.bare, ResolvedTy.written, Ty.str]
  | array elem length =>
    obtain ⟨elem', -, rfl⟩ := Results.map_eq_ok_iff.mp hu
    rw [isUnsized_iff hread]
    simp [LacksSize, Ty.bare, ResolvedTy.written, Ty.str]
  | reference lifetime mutable target =>
    rw [ResolvedTy.ofTy] at hu
    obtain ⟨-, -, hu⟩ := Results.bind_eq_ok_iff.mp hu
    obtain ⟨target', -, rfl⟩ := Results.map_eq_ok_iff.mp hu
    rw [isUnsized_iff hread]
    simp [LacksSize, Ty.bare, ResolvedTy.written, Ty.str]
  | qualified tokens => exact nomatch hu
  | object tokens => exact nomatch hu
  | other tokens => exact nomatch hu

/-! ## Payloads -/

/-- What the check for a size decides about a payload of a type that is rendered as `r`. -/
structure ChecksSize (table : SymbolTable) (c : Candidate) (constructor : Constructor)
    (context payload : Parameter) (t : Ty) (r : String) : Prop where
  /-- The construction fails with the rendered type exactly if the type lacks a size. -/
  error_iff : c.payloadConstruction (.ofTable table) constructor context payload =
      .error ⟨c.name, constructor.name, payload.written, .unsized r⟩ ↔
    table.LacksSize payload.scope t
  /-- Otherwise it has the rendered type. -/
  ok_iff : c.payloadConstruction (.ofTable table) constructor context payload =
      .ok ⟨constructor.name, context.passing, payload.passing, r⟩ ↔
    ¬ table.LacksSize payload.scope t
  /-- More steps find the name `str` only if the lookup gave up and is misread. -/
  more : table.lookup payload.scope "str" = none → ∀ n,
    table.lookupWithin n payload.scope "str" = none ∨ table.Misreading maxSteps n

/-- The check for a size is exact up to lookups that give up: a payload is rejected exactly if its
type, in any parentheses, is a slice or the primitive string type, whose name its lookup does not
find. The hypotheses exclude names that are no identifiers, and lengths and constants whose printed
text is not read as what they are. -/
theorem UsesIdentifiers.checksSize (htable : table.UsesIdentifiers) (c : Candidate)
    (constructor : Constructor) (context : Parameter) {payload : Parameter}
    (hscope : payload.scope.InCrate) {t : Ty} (htarget : Ty.ofText? payload.target = some t)
    (ht : ∀ part ∈ t.parts, part.IsLegible) {r : String}
    (hr : Resolver.ofTable table payload = .ok r) :
    table.ChecksSize c constructor context payload t r := by
  have hresolved : table.resolveTy payload.scope t = .ok r := by
    rwa [Resolver.ofTable, htarget] at hr
  rw [resolveTy_eq] at hresolved
  obtain ⟨u, hu, rfl⟩ := Results.map_eq_ok_iff.mp hresolved
  have hunsized : isUnsized u.text ↔ table.LacksSize payload.scope t :=
    htable.isUnsized_text_iff hscope t ht u hu
  have hconstruction : c.payloadConstruction (.ofTable table) constructor context payload =
      if isUnsized u.text then .error ⟨c.name, constructor.name, payload.written, .unsized u.text⟩
      else .ok ⟨constructor.name, context.passing, payload.passing, u.text⟩ := by
    rw [Candidate.payloadConstruction, hr]
  refine ⟨?_, ?_, fun hfind n => ?_⟩
  · rw [hconstruction, ← hunsized]
    split <;> simp [*]
  · rw [hconstruction, ← hunsized]
    split <;> simp [*]
  · exact lookupWithin_of_primitive htable.wellNamed (fun _ h => h.isSegment.2) hscope
      (by decide) (by decide) hfind n

/-- A slice has no size, and a payload of that type is rejected with its rendered type. -/
theorem checksSize_slice :
    let table := (Feed.ofSources {} Feed.importedIds).symbols
    let payload : Parameter := ⟨"& [UserId]", "[UserId]", .shared, ⟨"crate::acc"⟩⟩
    let t : Ty := .slice (.path false [.mk "UserId" .none])
    let r := "[crate::ids::UserId]"
    table.UsesIdentifiers ∧ payload.scope.InCrate ∧ Ty.ofText? payload.target = some t ∧
      (∀ part ∈ t.parts, part.IsLegible) ∧ Resolver.ofTable table payload = .ok r ∧
      table.LacksSize payload.scope t ∧
      ∀ c constructor context, table.ChecksSize c constructor context payload t r := by
  intro table payload t r
  have htable : table.UsesIdentifiers :=
    (Feed.connected_ofSources Feed.namedBy_importedIds).usesIdentifiers
  have hscope : payload.scope.InCrate := ⟨["acc"], by decide, rfl⟩
  have helem : Grammar.SpellsType "UserId" (.path false (Segment.ofNames .none ["UserId"])) := by
    refine Grammar.spellsType_names ?_ (.inr ?_) (List.forall_mem_nil _) ?_ ?_
      Grammar.spellsArgs_none
    all_goals decide
  have htarget : Ty.ofText? payload.target = some t := (Grammar.spellsType_slice helem).ofText?
  have hlegible : ∀ part ∈ t.parts, part.IsLegible := by
    intro part hpart
    rw [List.mem_singleton.mp hpart]
    unfold TyPart.IsLegible
    decide
  have hr : Resolver.ofTable table payload = .ok r := by decide +kernel
  exact ⟨htable, hscope, htarget, hlegible, hr, .inl ⟨_, rfl⟩, fun c constructor context =>
    htable.checksSize c constructor context hscope htarget hlegible hr⟩

/-- Modules in which each imports the name `str` from the next one. The last one declares an item
with this name. -/
def strImports : SymbolTable :=
  let names := ["acc", "a", "b", "c", "d", "e", "f", "g", "h", "i"]
  { items := [⟨"crate::i::str"⟩]
    modules := ⟨.root, .root⟩ :: names.map fun name => ⟨ItemPath.root.join name, .root⟩
    imports := (names.zip names.tail).map fun (name, next) =>
      ⟨ItemPath.root.join name, .named "str" ⟨false, ["crate", next, "str"]⟩⟩ }

/-- The lookup of the imported name gives up on its way, and the name is read as that of the
primitive type, which has no size. Two more steps find the item. -/
theorem payloadConstruction_strImports :
    let scope : ItemPath := ⟨"crate::acc"⟩
    let context : Parameter := ⟨"& Ctx", "Ctx", .shared, scope⟩
    let payload : Parameter := ⟨"& str", "str", .shared, scope⟩
    let c : Candidate := ⟨⟨"crate::acc::Svc"⟩, false, false, [.bare], []⟩
    strImports.namedImport? scope "str" = some ⟨false, ["crate", "a", "str"]⟩ ∧
      strImports.hasItem ⟨"crate::i::str"⟩ ∧
      strImports.lookupWithin (maxSteps + 2) scope "str" = some ⟨"crate::i::str"⟩ ∧
      c.payloadConstruction (.ofTable strImports) ⟨"open", [context, payload]⟩ context payload =
        .error ⟨c.name, "open", "& str", .unsized "str"⟩ := by
  decide +kernel

end SymbolTable

end ServiceDispatch
