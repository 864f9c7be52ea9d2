import ServiceDispatch.Proofs.Reading.Spelling

/-!
# Reading resolved types

The text of a resolved type is read as the type that it is written as, if the paths in it are made
of identifiers and the lengths and constants in it can be read.
-/

namespace ServiceDispatch

open Grammar (SpellsArgs SpellsLength SpellsType Spells BeginsArg BeginsPath argAt)
open Lexer (IsWord)

/-! ## Identifiers -/

/-- Whether a text is a name that is no keyword. -/
def IsIdentifier (name : String) : Prop := IsWord name ∧ name ∉ Grammar.keywords

instance (name : String) : Decidable (IsIdentifier name) := inferInstanceAs (Decidable (_ ∧ _))

/-- An identifier can be a segment of a path: it is not empty and has no colon. -/
theorem IsIdentifier.isSegment {name : String} (hname : IsIdentifier name) : IsSegment name := by
  have hcolon {c : Char} (hc : Text.isIdentContinue c) : c ≠ ':' := by
    rintro rfl
    exact absurd hc (by decide)
  obtain ⟨c, tail, hc, htail, heq⟩ := hname.1.cases
  have hchars : ∀ d ∈ c :: tail, d ≠ ':' :=
    List.forall_mem_cons.mpr ⟨hcolon (Text.isIdentContinue_of_isIdentStart hc),
      fun d hd => hcolon (htail d hd)⟩
  constructor
  · rintro rfl
    rcases heq with heq | ⟨heq, -⟩ <;> exact nomatch heq
  · intro hmem
    rcases heq with heq | ⟨heq, -⟩
    · rw [heq] at hmem
      exact hchars _ hmem rfl
    · rw [heq, List.mem_cons, List.mem_cons] at hmem
      rcases hmem with hr | hhash | hmem
      · exact absurd hr (by decide)
      · exact absurd hhash (by decide)
      · exact hchars _ hmem rfl

namespace ItemPath

/-! ## Paths -/

/-- Whether a path is written as words that can be read as a path. -/
structure IsLegible (p : ItemPath) (first : String) (names : List String) : Prop where
  segments : p.segments = first :: names
  text : p.text.toList = (if p.isRooted then [':', ':'] else []) ++
    (first.toList ++ names.flatMap fun name => ':' :: ':' :: name.toList)
  word : IsWord first ∧ BeginsPath first
  members : ∀ name ∈ names, IsIdentifier name
  below : first = "crate" → names ≠ []

/-- The text of a legible path and a spelling of arguments spell the path as a type. -/
theorem IsLegible.spellsType {p : ItemPath} {first : String} {names : List String}
    (hp : p.IsLegible first names) {text : String} {args : PathArgs}
    (hargs : SpellsArgs text args) : SpellsType (p.text ++ text) (p.written args) := by
  rw [written, hp.segments]
  refine Grammar.spellsType_names hp.word.1 hp.word.2 hp.members hp.below ?_ hargs
  rw [String.toList_append, hp.text]

/-- A path of the crate below its root is legible if its names are identifiers. -/
theorem isLegible_ofNames {names : List String} (hne : names ≠ [])
    (hnames : ∀ name ∈ names, IsIdentifier name) : (ofNames names).IsLegible "crate" names where
  segments := segments_ofNames fun name hname => (hnames name hname).isSegment
  text := by
    have hrooted : (ofNames names).isRooted = false := by
      rw [isRooted, toList_ofNames]
      rfl
    rw [hrooted, toList_ofNames]
    rfl
  word := ⟨by decide, .inl rfl⟩
  members := hnames
  below := fun _ => hne

/-- The segments of an external path are its names. -/
theorem segments_external {names : List String} (hne : names ≠ [])
    (hnames : ∀ name ∈ names, IsSegment name) : (external names).segments = names := by
  have hparts : ∀ part ∈ names.map String.toList, decide (part ≠ []) = true := by
    intro part hpart
    obtain ⟨name, hname, rfl⟩ := List.mem_map.mp hpart
    exact decide_eq_true fun hempty => (hnames name hname).1 (String.toList_eq_nil_iff.mp hempty)
  have hsplit : splitColons (names.flatMap fun name => ':' :: ':' :: name.toList) =
      [] :: names.map String.toList := splitColons_flatMap List.not_mem_nil hnames
  rw [segments, toList_external hne, hsplit, List.filter_cons_of_neg (by decide),
    List.filter_eq_self.mpr hparts, List.map_map]
  exact List.map_id'' (fun name => String.ofList_toList) names

/-- An external path is legible if its names are identifiers. -/
theorem isLegible_external {first : String} {names : List String}
    (hnames : ∀ name ∈ first :: names, IsIdentifier name) :
    (external (first :: names)).IsLegible first names where
  segments := segments_external (List.cons_ne_nil first names) fun name hname =>
    (hnames name hname).isSegment
  text := by
    have hrooted : (external (first :: names)).isRooted = true := by
      simp [isRooted, external]
    rw [hrooted, toList_external (List.cons_ne_nil first names)]
    rfl
  word := ⟨(hnames first List.mem_cons_self).1, .inr (hnames first List.mem_cons_self).2⟩
  members := (List.forall_mem_cons.mp hnames).2
  below := by
    rintro rfl
    exact absurd (hnames "crate" List.mem_cons_self).2 (by decide)

/-- A primitive type is legible, as its name is a word and no keyword. -/
theorem isLegible_of_mem_primitiveTypes {name : String} (hname : name ∈ primitiveTypes) :
    (ItemPath.mk name).IsLegible name [] := by
  have hall : ∀ name ∈ primitiveTypes, (ItemPath.mk name).segments = [name] ∧
      (ItemPath.mk name).isRooted = false ∧ IsIdentifier name := by decide
  obtain ⟨hsegments, hrooted, hidentifier⟩ := hall name hname
  refine ⟨hsegments, by rw [hrooted]; simp, ⟨hidentifier.1, .inr hidentifier.2⟩, nofun, ?_⟩
  rintro rfl
  exact absurd hidentifier.2 (by decide)

end ItemPath

/-! ## Types -/

/-- Whether a part of a resolved type can be read again. -/
def ResolvedPart.IsLegible : ResolvedPart → Prop
  | .path p => ∃ first names, p.IsLegible first names
  | .length own => SpellsLength (Token.printAll own) own
  | .const value => Spells BeginsArg argAt (Token.printAll value) (.const value)

namespace ResolvedTy

mutual

/-- The text of a resolved type spells it, if its parts are legible. -/
theorem spellsType_text (u : ResolvedTy) :
    (∀ part ∈ u.parts, part.IsLegible) → SpellsType u.text u.written := by
  intro hparts
  cases u with
  | path p =>
    obtain ⟨first, names, hp⟩ := hparts _ List.mem_cons_self
    have hspells := hp.spellsType Grammar.spellsArgs_none
    rwa [String.append_empty] at hspells
  | applied p args =>
    obtain ⟨hp, hargs⟩ := List.forall_mem_cons.mp hparts
    obtain ⟨first, names, hp⟩ := hp
    exact hp.spellsType (Grammar.spellsArgs_angled (spells_textsOfArgs args hargs))
  | tuple elems =>
    have helems := spellsType_textsOfAll elems hparts
    cases elems with
    | nil => exact Grammar.spellsType_unit
    | cons first others =>
      cases helems with
      | cons hfirst hothers =>
        have htuple := Grammar.spellsType_tuple hfirst hothers
        cases others <;> exact htuple
  | array elem length =>
    obtain ⟨hlength, helem⟩ := List.forall_mem_cons.mp hparts
    exact Grammar.spellsType_array (spellsType_text elem helem) hlength
  | slice elem => exact Grammar.spellsType_slice (spellsType_text elem hparts)
  | reference mutable target =>
    exact Grammar.spellsType_reference (spellsType_text target hparts) mutable

/-- The texts of resolved types spell them, each by itself, if their parts are legible. -/
theorem spellsType_textsOfAll (us : List ResolvedTy) :
    (∀ part ∈ partsOfAll us, part.IsLegible) →
      List.Forall₂ SpellsType (textsOfAll us) (writtenOfAll us) := by
  intro hparts
  cases us with
  | nil => exact .nil
  | cons u us =>
    obtain ⟨hu, hus⟩ := List.forall_mem_append.mp hparts
    exact .cons (spellsType_text u hu) (spellsType_textsOfAll us hus)

/-- The texts of resolved arguments spell them, each by itself, if their parts are legible. -/
theorem spells_textsOfArgs (args : List ResolvedArg) :
    (∀ part ∈ partsOfArgs args, part.IsLegible) →
      List.Forall₂ (Spells BeginsArg argAt) (textsOfArgs args) (writtenOfArgs args) := by
  intro hparts
  cases args with
  | nil => exact .nil
  | cons arg args =>
    obtain ⟨harg, hargs⟩ := List.forall_mem_append.mp hparts
    exact .cons (spells_textOfArg arg harg) (spells_textsOfArgs args hargs)

/-- The text of a resolved argument spells it, be it a lifetime, a type or a constant. -/
theorem spells_textOfArg (arg : ResolvedArg) :
    (∀ part ∈ partsOfArg arg, part.IsLegible) →
      Spells BeginsArg argAt (textOfArg arg) (writtenOfArg arg) := by
  intro hparts
  cases arg with
  | static => exact Grammar.spells_static
  | type t => exact (spellsType_text t hparts).spells_arg
  | const value => exact hparts _ List.mem_cons_self

end

end ResolvedTy

end ServiceDispatch
