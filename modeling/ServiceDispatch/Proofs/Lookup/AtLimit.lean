import Mathlib.Logic.Relation
import ServiceDispatch.Proofs.Lookup.Limit

/-!
# Answers at the limit of a lookup

A lookup within all steps that are allowed makes further lookups, with fewer steps each. Its answer
can change with a larger limit only if one of these misreads the absence of a name; what other
lookups of the table would misread does not matter.
-/

namespace ServiceDispatch.SymbolTable

variable {table : SymbolTable} {n n' : Nat} {scope module answer : ItemPath} {name : String}

/-! ## Lookups and what they lead to -/

/-- Whether a lookup misreads the absence of a name, as some larger number of steps shows. -/
def Query.IsMisread (table : SymbolTable) (q : Query) : Prop :=
  ∃ n n', q.steps = n + 1 ∧ n ≤ n' ∧ table.MisreadAt n n' q.module q.name

/-- Whether the answer of a lookup is the answer within every larger number of steps. -/
def Query.Lasts (table : SymbolTable) (q : Query) : Prop :=
  ∀ n', q.steps ≤ n' → (table.lookupWithin q.steps).KeepsAt (table.lookupWithin n') q.module q.name

/-- Whether a lookup is made in the course of another one, or is that one itself. -/
def Query.Reaches (table : SymbolTable) : Query → Query → Prop := Relation.ReflTransGen table.Asks

/-- The answer of a lookup lasts if no lookup in its course is misread. The induction is on the
steps, which get fewer from a lookup to those that it makes. -/
theorem Query.lasts_of_not_isMisread {q : Query}
    (hread : ∀ last, q.Reaches table last → ¬ last.IsMisread table) : q.Lasts table := by
  obtain ⟨n, module, name⟩ := q
  induction n using Nat.strongRecOn generalizing module name with
  | ind n ih =>
    intro n' hn
    cases n with
    | zero =>
      intro answer hanswer
      exact nomatch hanswer
    | succ n =>
      obtain ⟨n', rfl⟩ := Nat.exists_eq_add_of_le' (Nat.le_trans (Nat.le_add_left 1 n) hn)
      have hle : n ≤ n' := Nat.le_of_succ_le_succ hn
      have hmade {k : Nat} {asked : ItemPath} {segment : String} (hk : k < n + 1)
          (hasks : table.Asks ⟨n + 1, module, name⟩ ⟨k, asked, segment⟩) :
          Query.Lasts table ⟨k, asked, segment⟩ :=
        ih k hk asked segment fun last hlast => hread last (hlast.head hasks)
      refine lookupWithin_succ_keeps ?_ ?_ fun hat => ?_
      · exact fun asked segment hasks =>
          hmade (by omega) hasks (n' - 1) (Nat.sub_le_sub_right hle 1)
      · exact fun target hasks => hmade (Nat.lt_succ_self n) hasks n' hle
      · exact hread _ .refl ⟨n, n', rfl, hle, hat⟩

/-- What is misread does not last: the larger number of steps gives another answer. -/
theorem Query.IsMisread.not_lasts {q : Query} (hread : q.IsMisread table) : ¬ q.Lasts table := by
  obtain ⟨n, n', hsteps, hn, hat⟩ := hread
  intro hlasts
  have hkept := hlasts (n' + 1) (by omega)
  rw [hsteps] at hkept
  exact hat.not_keepsAt hkept

/-- All answers in the course of a lookup at the limit last, its own one included, exactly if none
of them is misread. -/
theorem lasts_maxSteps_iff_not_isMisread (table : SymbolTable) (module : ItemPath) (name : String) :
    (∀ last, Query.Reaches table ⟨maxSteps, module, name⟩ last → last.Lasts table) ↔
      ∀ last, Query.Reaches table ⟨maxSteps, module, name⟩ last → ¬ last.IsMisread table := by
  constructor
  · intro hlasts last hlast hread
    exact hread.not_lasts (hlasts last hlast)
  · intro hread last hlast
    exact Query.lasts_of_not_isMisread fun further hfurther => hread further (hlast.trans hfurther)

/-! ## Paths in types -/

/-- Whether a path in a type can be misread at the limit: its first name is not found and therefore
taken for one that is known everywhere, although more steps find it, or a lookup that the path makes
leads to one that is misread. -/
inductive Misleads (table : SymbolTable) (scope : ItemPath) (names : List String) : Prop where
  | knownName {first : String} {rest : List String} {answer : ItemPath} {n' : Nat}
      (hnames : names = first :: rest) (hplain : IsPlainName first)
      (hfirst : table.lookup scope first = none)
      (hknown : table.meaningElsewhere first rest = .ok answer) (hn : maxSteps ≤ n')
      (hother : table.lookupWithin n' scope first ≠ none)
  | lookup {asked : ItemPath} {name : String} {last : Query}
      (hasks : UsePath.Asks table.lookup scope names asked name)
      (hlast : Query.Reaches table ⟨maxSteps, asked, name⟩ last) (hread : last.IsMisread table)

/-- A path in a type that is not misread at the limit means the same with every larger one. Rooted
paths make no lookups, and no condition is needed for them. -/
theorem resolveNames_lasts {rooted : Bool} {names : List String}
    (hread : rooted = false → ¬ table.Misleads scope names)
    (hanswer : table.resolveNames scope rooted names = .ok answer) (hn : maxSteps ≤ n') :
    table.resolveNamesBy (table.lookupWithin n') scope rooted names = .ok answer := by
  have hkept (hrooted : rooted = false) (asked : ItemPath) (name : String)
      (hasks : UsePath.Asks table.lookup scope names asked name) :
      table.lookup.KeepsAt (table.lookupWithin n') asked name := by
    have hlasts : Query.Lasts table ⟨maxSteps, asked, name⟩ :=
      Query.lasts_of_not_isMisread fun last hlast hat => hread hrooted (.lookup hasks hlast hat)
    exact hlasts n' hn
  rcases resolveNamesBy_keeps hkept hanswer with hsame | hunknown
  · exact hsame
  · obtain ⟨rfl, first, rest, rfl, hplain, hfirst, hknown⟩ := hunknown
    have hfirst' : table.lookupWithin n' scope first = none := by
      by_contra hother
      exact hread rfl (.knownName rfl hplain hfirst hknown hn hother)
    rw [resolveNamesBy_of_unknown hplain hfirst']
    exact hknown

/-- A type that is not misread at the limit is the same item with every larger one. -/
theorem resolveItem?_lasts {type : Ty}
    (hread : ∀ segments, type = .path false segments →
      ¬ table.Misleads scope (segments.map Segment.name))
    (hanswer : table.resolveItem? scope type = some answer) (hn : maxSteps ≤ n') :
    table.resolveItemBy? (table.lookupWithin n') scope type = some answer := by
  refine resolveItemBy?_keeps ?_ hanswer
  rintro rooted segments path rfl hpath
  exact resolveNames_lasts (fun hrooted => hread segments (hrooted ▸ rfl)) hpath hn

/-! ## Anchored imports -/

/-- Whether the paths of a table's imports begin with `crate`, `self`, `super` or the separator, and
no module has two globs. -/
structure IsAnchored (table : SymbolTable) : Prop where
  paths : ∀ module name path, .named name path ∈ table.importsOf module → path.rooted = false →
    ∀ first rest, path.segments = first :: rest → ¬ IsPlainName first
  globs : ∀ module before path after, table.importsOf module = before ++ .glob path :: after →
    ∀ other, .glob other ∉ before

/-- In an anchored table no lookup is misread, since the names in front of its import paths are
found at once. -/
theorem IsAnchored.not_isMisread (htable : table.IsAnchored) (q : Query) :
    ¬ q.IsMisread table := by
  rintro ⟨n, n', -, -, hat⟩
  cases hat with
  | crateName himport hrooted hsegments hplain hfirst hother =>
    exact htable.paths _ _ _ (mem_importsOf_of_namedImport? himport) hrooted _ _ hsegments hplain
  | @glob before after binding answer other hname hnamed himports hbefore hanswer hearlier hother =>
    obtain ⟨earlier, hmem, hmember⟩ := List.exists_of_findSome?_eq_some hearlier
    cases binding with
    | named bound path => exact nomatch hanswer
    | glob path =>
      cases earlier with
      | named bound path' => exact nomatch hmember
      | glob path' => exact htable.globs _ _ _ _ himports _ hmem

/-- In an anchored table every answer of a lookup at the limit is the answer within every larger
number of steps. -/
theorem IsAnchored.lookup_keeps (htable : table.IsAnchored) (hn : maxSteps ≤ n') :
    table.lookup.Keeps (table.lookupWithin n') := by
  intro module name
  have hlasts : Query.Lasts table ⟨maxSteps, module, name⟩ :=
    Query.lasts_of_not_isMisread fun last _ => htable.not_isMisread last
  exact hlasts n' hn

end ServiceDispatch.SymbolTable
