import Mathlib.Data.List.Perm.Basic
import ServiceDispatch.Construction
import ServiceDispatch.Proofs.Results

/-!
# A selection as a partition

Every candidate contributes one entry to a selection, a rule or the reason why it is left out, and
what it contributes depends on the candidate alone. A selection lists the entries of both sorts in
the order of the candidates; it fails with the first candidate that is eligible and takes a payload
that cannot be dispatched on.
-/

namespace ServiceDispatch

open Results (map_eq_error_iff map_eq_ok_iff mapM_eq_error_iff mapM_eq_ok_iff)

/-! ## Candidates -/

/-- A constructor that takes the context has a parameter, since the context is its first one. The
shapes of a rule are therefore the arities one and two, and a third arity is no shape. -/
theorem Constructor.arity_pos {constructor : Constructor} {resolver : Resolver}
    {settings : Settings} (htakes : constructor.takesContext resolver settings) :
    0 < constructor.arity := by
  obtain ⟨name, params⟩ := constructor
  cases params with
  | nil => exact nomatch htakes
  | cons first rest => exact Nat.succ_pos _

namespace Candidate

variable {resolver : Resolver} {settings : Settings} {c : Candidate}

/-- Whether a candidate is eligible, but one of its payload types cannot be dispatched on. -/
def FailsWith (c : Candidate) (resolver : Resolver) (settings : Settings)
    (e : UnresolvedPayload) : Prop :=
  c.exclusion? resolver settings = none ∧ c.rule resolver settings = .error e

/-- Whether a candidate is eligible, but all its constructors that take the context take more than
one further argument. -/
def IsShapeless (c : Candidate) (resolver : Resolver) (settings : Settings) : Prop :=
  c.exclusion? resolver settings = none ∧
    ∀ constructor ∈ c.constructors, constructor.takesContext resolver settings →
      3 ≤ constructor.arity

/-- The checks before the comparison of constructors leave that comparison alone. -/
theorem exclusion?_ne_noDispatchableShape :
    c.exclusion? resolver settings ≠ some .noDispatchableShape := by
  unfold exclusion?
  repeat' split
  all_goals exact fun heq => nomatch heq

/-- The rule of a candidate has both constructions, unless there is none. -/
theorem rule_eq : c.rule resolver settings =
    (c.parameterized resolver settings).map fun parameterized =>
      if (c.contextOnly? resolver settings).isNone && parameterized.isNone then none
      else some ⟨c.name, c.contextOnly? resolver settings, parameterized⟩ := by
  unfold Candidate.rule
  cases c.parameterized resolver settings with
  | error e => rfl
  | ok parameterized =>
    simp only [Bind.bind, Except.bind, pure, Except.pure, Except.map]
    split <;> rfl

/-- A rule is made of the constructions of its candidate: its target is the name of the candidate,
and its two parts are what the two searches over the constructors give. Nothing else of the
candidate enters a rule. -/
theorem rule_eq_some {rule : DispatchRule} (hrule : c.rule resolver settings = .ok (some rule)) :
    rule.target = c.name ∧ rule.contextOnly = c.contextOnly? resolver settings ∧
      c.parameterized resolver settings = .ok rule.parameterized := by
  rw [rule_eq] at hrule
  obtain ⟨parameterized, hpayload, hsome⟩ := map_eq_ok_iff.mp hrule
  split at hsome
  · exact nomatch hsome
  · rw [← Option.some.inj hsome]
    exact ⟨rfl, rfl, hpayload⟩

/-- No constructor has a shape if none takes the context with that many parameters. -/
theorem shaped?_eq_none_iff {arity : Nat} :
    c.shaped? resolver settings arity = none ↔
      ∀ constructor ∈ c.constructors, constructor.takesContext resolver settings →
        constructor.arity ≠ arity := by
  rw [shaped?, List.find?_eq_none]
  constructor
  · intro hnone constructor hmem htakes harity
    exact hnone constructor hmem (by simp [harity, htakes])
  · intro hnone constructor hmem hshape
    rw [Bool.and_eq_true, beq_iff_eq] at hshape
    exact hnone constructor hmem hshape.2 hshape.1

/-- A constructor with a shape is one of the candidate, takes the context and has that many
parameters. -/
theorem shaped?_eq_some {arity : Nat} {constructor : Constructor}
    (hshaped : c.shaped? resolver settings arity = some constructor) :
    constructor ∈ c.constructors ∧ constructor.arity = arity ∧
      constructor.takesContext resolver settings := by
  have hshape := List.find?_some hshaped
  rw [Bool.and_eq_true, beq_iff_eq] at hshape
  exact ⟨List.mem_of_find?_eq_some hshaped, hshape.1, hshape.2⟩

/-- A candidate has a construction from the context alone if a constructor has that shape. -/
theorem contextOnly?_eq_none_iff :
    c.contextOnly? resolver settings = none ↔ c.shaped? resolver settings 1 = none := by
  unfold contextOnly?
  cases hshaped : c.shaped? resolver settings 1 with
  | none => exact ⟨fun _ => rfl, fun _ => rfl⟩
  | some constructor =>
    obtain ⟨-, harity, -⟩ := shaped?_eq_some hshaped
    obtain ⟨name, params⟩ := constructor
    obtain ⟨context, rfl⟩ := List.length_eq_one_iff.mp harity
    exact ⟨(nomatch ·), (nomatch ·)⟩

/-- A candidate has no construction from a payload if no constructor has that shape. -/
theorem parameterized_eq_none_iff :
    c.parameterized resolver settings = .ok none ↔ c.shaped? resolver settings 2 = none := by
  unfold parameterized
  cases hshaped : c.shaped? resolver settings 2 with
  | none => exact ⟨fun _ => rfl, fun _ => rfl⟩
  | some constructor =>
    obtain ⟨-, harity, -⟩ := shaped?_eq_some hshaped
    obtain ⟨name, params⟩ := constructor
    obtain ⟨context, payload, rfl⟩ := List.length_eq_two.mp harity
    dsimp only
    cases c.payloadConstruction resolver ⟨name, [context, payload]⟩ context payload with
    | error e => exact ⟨(nomatch ·), (nomatch ·)⟩
    | ok how => exact ⟨(nomatch ·), (nomatch ·)⟩

/-- An eligible candidate is without a rule exactly if it is shapeless: each of its constructors
that takes the context has three parameters or more. The statement holds for every candidate,
eligible or not. -/
theorem rule_eq_none_iff :
    c.rule resolver settings = .ok none ↔
      ∀ constructor ∈ c.constructors, constructor.takesContext resolver settings →
        3 ≤ constructor.arity := by
  have hrule : c.rule resolver settings = .ok none ↔
      c.contextOnly? resolver settings = none ∧ c.parameterized resolver settings = .ok none := by
    rw [rule_eq, map_eq_ok_iff]
    constructor
    · rintro ⟨parameterized, hpayload, hnone⟩
      split at hnone
      · rename_i hboth
        rw [Bool.and_eq_true, Option.isNone_iff_eq_none, Option.isNone_iff_eq_none] at hboth
        exact ⟨hboth.1, hboth.2 ▸ hpayload⟩
      · exact nomatch hnone
    · rintro ⟨hcontext, hpayload⟩
      refine ⟨none, hpayload, if_pos ?_⟩
      rw [hcontext]
      rfl
  rw [hrule, contextOnly?_eq_none_iff, parameterized_eq_none_iff, shaped?_eq_none_iff,
    shaped?_eq_none_iff]
  constructor
  · rintro ⟨hone, htwo⟩ constructor hmem htakes
    have hpos := Constructor.arity_pos htakes
    have hne := hone constructor hmem htakes
    have hne' := htwo constructor hmem htakes
    omega
  · intro hthree
    constructor
    all_goals
      intro constructor hmem htakes
      have harity := hthree constructor hmem htakes
      omega

end Candidate

/-! ## Entries -/

/-- What a candidate contributes to a selection. -/
inductive Entry where
  | dispatched (rule : DispatchRule)
  | leftOut (excluded : Excluded)

namespace Entry

/-- The candidate that an entry is about. -/
def name : Entry → ItemPath
  | .dispatched rule => rule.target
  | .leftOut excluded => excluded.name

/-- An entry as a rule. -/
def rule? : Entry → Option DispatchRule
  | .dispatched rule => some rule
  | .leftOut _ => none

/-- An entry as a reason. -/
def excluded? : Entry → Option Excluded
  | .dispatched _ => none
  | .leftOut excluded => some excluded

/-- The entry of a candidate with an outcome. -/
def ofOutcome (c : Candidate) : Except Exclusion DispatchRule → Entry
  | .ok rule => .dispatched rule
  | .error reason => .leftOut ⟨c.name, reason⟩

/-- Each entry is either a rule or a reason, so the two halves of a selection have together as many
elements as there were entries. -/
theorem length_filterMap (entries : List Entry) :
    (entries.filterMap rule?).length + (entries.filterMap excluded?).length = entries.length := by
  induction entries with
  | nil => rfl
  | cons entry entries ih =>
    cases entry with
    | dispatched rule =>
      simp only [List.filterMap_cons, rule?, excluded?, List.length_cons]
      omega
    | leftOut excluded =>
      simp only [List.filterMap_cons, rule?, excluded?, List.length_cons]
      omega

end Entry

/-- Whether an entry is the one that a candidate contributes: it has the name of the candidate, a
rule is the one of an eligible candidate, and a reason is either the first check that fails or that
the candidate is shapeless. -/
structure Candidate.Contributes (c : Candidate) (resolver : Resolver) (settings : Settings)
    (entry : Entry) : Prop where
  name_eq : entry.name = c.name
  rule_iff : ∀ rule, entry = .dispatched rule ↔
    c.exclusion? resolver settings = none ∧ c.rule resolver settings = .ok (some rule)
  excluded_iff : ∀ reason, reason ≠ .noDispatchableShape →
    (entry = .leftOut ⟨c.name, reason⟩ ↔ c.exclusion? resolver settings = some reason)
  shapeless_iff : entry = .leftOut ⟨c.name, .noDispatchableShape⟩ ↔
    c.IsShapeless resolver settings

namespace Selection

variable {resolver : Resolver} {settings : Settings}

/-- The entry of a candidate. -/
def entryOf (resolver : Resolver) (settings : Settings) (c : Candidate) :
    Except UnresolvedPayload Entry :=
  (outcome c resolver settings).map (Entry.ofOutcome c)

/-- The selection of some entries. -/
def ofEntries (entries : List Entry) : Selection :=
  ⟨entries.filterMap Entry.rule?, entries.filterMap Entry.excluded?⟩

/-- The outcome of a candidate that a check excludes is the reason. Its constructors are not
resolved then, so no unresolved payload of it can fail the selection. -/
theorem outcome_of_excluded {c : Candidate} {reason : Exclusion}
    (hreason : c.exclusion? resolver settings = some reason) :
    outcome c resolver settings = .ok (.error reason) := by
  rw [outcome, hreason]

/-- The outcome of an eligible candidate is the one of its rule. -/
theorem outcome_of_eligible {c : Candidate} (hpass : c.exclusion? resolver settings = none) :
    outcome c resolver settings = (c.rule resolver settings).map fun rule? =>
      rule?.elim (.error .noDispatchableShape) .ok := by
  rw [outcome, hpass]
  cases c.rule resolver settings with
  | error e => rfl
  | ok rule? => cases rule? <;> rfl

/-- A candidate has no entry exactly if it fails: the checks let it pass, and the payload type of
its first constructor with a payload cannot be dispatched on. -/
theorem entryOf_eq_error_iff {c : Candidate} {e : UnresolvedPayload} :
    entryOf resolver settings c = .error e ↔ c.FailsWith resolver settings e := by
  rw [entryOf, map_eq_error_iff, Candidate.FailsWith]
  cases hpass : c.exclusion? resolver settings with
  | some reason =>
    rw [outcome_of_excluded hpass]
    exact ⟨(nomatch ·), (nomatch ·.1)⟩
  | none =>
    rw [outcome_of_eligible hpass, map_eq_error_iff]
    exact ⟨fun herror => ⟨rfl, herror⟩, And.right⟩

/-- A candidate that a check excludes contributes the reason, and never a rule beside it. -/
theorem contributes_of_excluded {c : Candidate} {reason : Exclusion}
    (hreason : c.exclusion? resolver settings = some reason) :
    c.Contributes resolver settings (.leftOut ⟨c.name, reason⟩) where
  name_eq := rfl
  rule_iff rule := by
    rw [hreason]
    exact ⟨(nomatch ·), (nomatch ·.1)⟩
  excluded_iff other _ := by
    rw [hreason, Entry.leftOut.injEq, Excluded.mk.injEq, Option.some.injEq]
    exact ⟨And.right, fun heq => ⟨rfl, heq⟩⟩
  shapeless_iff := by
    rw [Candidate.IsShapeless, hreason, Entry.leftOut.injEq, Excluded.mk.injEq]
    constructor
    · rintro ⟨-, rfl⟩
      exact absurd hreason c.exclusion?_ne_noDispatchableShape
    · exact (nomatch ·.1)

/-- An eligible candidate without a rule contributes that it is shapeless. -/
theorem contributes_of_shapeless {c : Candidate} (hpass : c.exclusion? resolver settings = none)
    (hrule : c.rule resolver settings = .ok none) :
    c.Contributes resolver settings (.leftOut ⟨c.name, .noDispatchableShape⟩) where
  name_eq := rfl
  rule_iff rule := by
    rw [hrule]
    exact ⟨(nomatch ·), (nomatch ·.2)⟩
  excluded_iff reason hreason := by
    rw [hpass, Entry.leftOut.injEq, Excluded.mk.injEq]
    exact ⟨fun heq => absurd heq.2.symm hreason, (nomatch ·)⟩
  shapeless_iff := ⟨fun _ => ⟨hpass, Candidate.rule_eq_none_iff.mp hrule⟩, fun _ => rfl⟩

/-- An eligible candidate with a rule contributes the rule, and no reason beside it. The hypotheses
are the two steps of the selection, the checks first. -/
theorem contributes_of_rule {c : Candidate} {rule : DispatchRule}
    (hpass : c.exclusion? resolver settings = none)
    (hrule : c.rule resolver settings = .ok (some rule)) :
    c.Contributes resolver settings (.dispatched rule) where
  name_eq := (Candidate.rule_eq_some hrule).1
  rule_iff other := by
    rw [hrule, Entry.dispatched.injEq, Except.ok.injEq, Option.some.injEq]
    exact ⟨fun heq => ⟨hpass, heq⟩, And.right⟩
  excluded_iff reason _ := by
    rw [hpass]
    exact ⟨(nomatch ·), (nomatch ·)⟩
  shapeless_iff := by
    refine ⟨(nomatch ·), fun hshapeless => ?_⟩
    have hnone := Candidate.rule_eq_none_iff.mpr hshapeless.2
    exact nomatch hnone.symm.trans hrule

/-- The entry of a candidate is what it contributes. The three cases of the outcome, a reason, no
shape and a rule, are the cases of the proof. -/
theorem contributes_of_entryOf {c : Candidate} {entry : Entry}
    (hentry : entryOf resolver settings c = .ok entry) : c.Contributes resolver settings entry := by
  obtain ⟨result, houtcome, rfl⟩ := map_eq_ok_iff.mp hentry
  cases hpass : c.exclusion? resolver settings with
  | some reason =>
    rw [outcome_of_excluded hpass] at houtcome
    obtain rfl := Except.ok.inj houtcome
    exact contributes_of_excluded hpass
  | none =>
    rw [outcome_of_eligible hpass] at houtcome
    obtain ⟨rule?, hrule, rfl⟩ := map_eq_ok_iff.mp houtcome
    cases rule? with
    | none => exact contributes_of_shapeless hpass hrule
    | some rule => exact contributes_of_rule hpass hrule

/-- A selection is made of the entries of the candidates, one after the other. -/
theorem ofCandidates_eq (cs : List Candidate) :
    ofCandidates resolver settings cs =
      (cs.mapM (entryOf resolver settings)).map ofEntries := by
  induction cs with
  | nil => rfl
  | cons c cs ih =>
    rw [ofCandidates, ih, List.mapM_cons, entryOf]
    cases outcome c resolver settings with
    | error e => rfl
    | ok result =>
      cases cs.mapM (entryOf resolver settings) with
      | error e => rfl
      | ok entries => cases result <;> rfl

/-! ## Selections -/

/-- A selection lists the entries of its candidates: it succeeds exactly if every candidate has an
entry, and it is then the selection of these entries in their order. -/
theorem ofCandidates_eq_ok_iff {cs : List Candidate} {s : Selection} :
    ofCandidates resolver settings cs = .ok s ↔
      ∃ entries, List.Forall₂ (fun c entry => entryOf resolver settings c = .ok entry) cs entries ∧
        s = ofEntries entries := by
  simp only [ofCandidates_eq, map_eq_ok_iff, mapM_eq_ok_iff]
  exact exists_congr fun _ => and_congr_right fun _ => eq_comm

/-- Every rule of a selection is the one of an eligible candidate, which stands where the entry of
the rule stands. -/
theorem exists_of_mem_table {cs : List Candidate} {s : Selection}
    (hs : ofCandidates resolver settings cs = .ok s) {rule : DispatchRule}
    (hrule : rule ∈ s.table) :
    ∃ c ∈ cs, c.exclusion? resolver settings = none ∧
      c.rule resolver settings = .ok (some rule) := by
  obtain ⟨entries, hentries, rfl⟩ := ofCandidates_eq_ok_iff.mp hs
  obtain ⟨entry, hmem, hentry⟩ := List.mem_filterMap.mp hrule
  have hdispatched : entry = .dispatched rule := by
    cases entry with
    | dispatched other => rw [Option.some.inj hentry]
    | leftOut excluded => exact nomatch hentry
  induction hentries with
  | nil => exact absurd hmem List.not_mem_nil
  | @cons c first cs entries hfirst hrest ih =>
    rcases List.mem_cons.mp hmem with rfl | hmem
    · exact ⟨c, List.mem_cons_self,
        ((contributes_of_entryOf hfirst).rule_iff rule).mp hdispatched⟩
    · have hcs := ofCandidates_eq_ok_iff.mpr ⟨entries, hrest, rfl⟩
      obtain ⟨other, hother, heligible⟩ :=
        ih hcs (List.mem_filterMap.mpr ⟨entry, hmem, hentry⟩) hmem
      exact ⟨other, List.mem_cons_of_mem _ hother, heligible⟩

/-- A selection fails with the error of the first candidate that fails. -/
theorem ofCandidates_eq_error_iff {cs : List Candidate} {e : UnresolvedPayload} :
    ofCandidates resolver settings cs = .error e ↔
      ∃ front c back, cs = front ++ c :: back ∧ c.FailsWith resolver settings e ∧
        ∀ other ∈ front, ∀ e', ¬ other.FailsWith resolver settings e' := by
  simp only [ofCandidates_eq, map_eq_error_iff, mapM_eq_error_iff, ne_eq, entryOf_eq_error_iff]

/-- The selection of the candidates of one list after those of another. -/
def append (s s' : Selection) : Selection := ⟨s.table ++ s'.table, s.excluded ++ s'.excluded⟩

/-- Entries one after the other make selections one after the other. -/
theorem ofEntries_append (entries entries' : List Entry) :
    ofEntries (entries ++ entries') = (ofEntries entries).append (ofEntries entries') := by
  simp [ofEntries, append, List.filterMap_append]

/-- Two lists of candidates contribute one after the other. A failure of the first list hides every
failure of the second. -/
theorem ofCandidates_append (xs ys : List Candidate) :
    ofCandidates resolver settings (xs ++ ys) = (do
      let s ← ofCandidates resolver settings xs
      let s' ← ofCandidates resolver settings ys
      return s.append s') := by
  rw [ofCandidates_eq, ofCandidates_eq, ofCandidates_eq, List.mapM_append]
  cases xs.mapM (entryOf resolver settings) with
  | error e => rfl
  | ok entries =>
    cases ys.mapM (entryOf resolver settings) with
    | error e => rfl
    | ok entries' => exact congrArg Except.ok (ofEntries_append entries entries')

/-- Candidates in another order contribute the same entries in another order. -/
theorem ofCandidates_perm {cs cs' : List Candidate} (hperm : cs.Perm cs') {s : Selection}
    (hs : ofCandidates resolver settings cs = .ok s) :
    ∃ s', ofCandidates resolver settings cs' = .ok s' ∧ s.table.Perm s'.table ∧
      s.excluded.Perm s'.excluded := by
  obtain ⟨entries, hentries, rfl⟩ := ofCandidates_eq_ok_iff.mp hs
  obtain ⟨entries', hentries', hperm'⟩ := List.perm_comp_forall₂ hperm.symm hentries
  refine ⟨ofEntries entries', ofCandidates_eq_ok_iff.mpr ⟨entries', hentries', rfl⟩, ?_, ?_⟩
  · exact (hperm'.filterMap Entry.rule?).symm
  · exact (hperm'.filterMap Entry.excluded?).symm

/-- A selection partitions its candidates in their order, each by itself: lists of candidates can be
selected apart, and rearranged candidates give rearranged results. It fails exactly if an eligible
candidate fails, with the error of the first one. -/
theorem ofCandidates_partition (resolver : Resolver) (settings : Settings) (cs : List Candidate) :
    (∀ e, ofCandidates resolver settings cs = .error e ↔
      ∃ front c back, cs = front ++ c :: back ∧ c.FailsWith resolver settings e ∧
        ∀ other ∈ front, ∀ e', ¬ other.FailsWith resolver settings e') ∧
    (∀ s, ofCandidates resolver settings cs = .ok s →
      ∃ entries, List.Forall₂ (fun c entry => c.Contributes resolver settings entry) cs entries ∧
        s.table = entries.filterMap Entry.rule? ∧
        s.excluded = entries.filterMap Entry.excluded? ∧
        s.table.length + s.excluded.length = cs.length) ∧
    (∀ cs', ofCandidates resolver settings (cs ++ cs') = (do
      let s ← ofCandidates resolver settings cs
      let s' ← ofCandidates resolver settings cs'
      return ⟨s.table ++ s'.table, s.excluded ++ s'.excluded⟩)) ∧
    ∀ cs', cs.Perm cs' → ∀ s, ofCandidates resolver settings cs = .ok s →
      ∃ s', ofCandidates resolver settings cs' = .ok s' ∧ s.table.Perm s'.table ∧
        s.excluded.Perm s'.excluded := by
  refine ⟨fun e => ofCandidates_eq_error_iff, ?_, ofCandidates_append cs, ?_⟩
  · intro s hs
    obtain ⟨entries, hentries, rfl⟩ := ofCandidates_eq_ok_iff.mp hs
    refine ⟨entries, hentries.imp fun _ _ => contributes_of_entryOf, rfl, rfl, ?_⟩
    rw [hentries.length_eq]
    exact Entry.length_filterMap entries
  · intro cs' hperm s hs
    exact ofCandidates_perm hperm hs

end Selection

end ServiceDispatch
