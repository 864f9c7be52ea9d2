import Mathlib.Data.List.Find
import ServiceDispatch.Proofs.Selection.Partition

/-!
# Selections by two resolvers

Why a type does not resolve never decides about a rule. If two resolvers render the same parameters,
and render them alike, a selection that one of them gives is also given by the other one.
-/

namespace ServiceDispatch

open Results (map_eq_ok_iff)

variable {resolver resolver' : Resolver} {settings : Settings}

/-- Whether two resolvers render the same parameters of a constructor, and render them alike. -/
def Constructor.RendersAlike (resolver resolver' : Resolver) (k : Constructor) : Prop :=
  ∀ parameter ∈ k.params, ∀ r, resolver' parameter = .ok r ↔ resolver parameter = .ok r

/-- A constructor takes the context if a resolver renders its first parameter so. -/
theorem Constructor.takesContext_iff {k : Constructor} : k.takesContext resolver settings ↔
    ∃ first rest, k.params = first :: rest ∧ resolver first = .ok settings.contextType.text := by
  obtain ⟨name, params⟩ := k
  cases params with
  | nil => simp [takesContext]
  | cons first rest =>
    cases hfirst : resolver first with
    | error e => simp [takesContext, hfirst]
    | ok type => simp [takesContext, hfirst]

/-- The same constructors take the context, since only the first parameter decides and both
resolvers give it the same text. -/
theorem Constructor.takesContext_eq {k : Constructor} (hk : k.RendersAlike resolver resolver') :
    k.takesContext resolver' settings = k.takesContext resolver settings := by
  rw [Bool.eq_iff_iff, takesContext_iff, takesContext_iff]
  refine exists_congr fun first => exists_congr fun rest => and_congr_right fun hparams => ?_
  exact hk first (by simp [hparams]) _

namespace Candidate

variable {c : Candidate}

/-- A candidate is excluded for the same reason by two resolvers that render its parameters alike.
The checks before the last one do not ask the resolver at all. -/
theorem exclusion?_eq (hc : ∀ k ∈ c.constructors, k.RendersAlike resolver resolver') :
    c.exclusion? resolver' settings = c.exclusion? resolver settings := by
  unfold exclusion?
  cases hfirst : c.firstParameter? with
  | none => rfl
  | some found =>
    obtain ⟨k, hk, hfound⟩ := List.exists_of_findSome?_eq_some hfirst
    obtain ⟨first, -, rfl⟩ := Option.map_eq_some_iff.mp hfound
    dsimp only
    rw [Constructor.takesContext_eq (hc k hk)]

/-- The same constructor has a shape under two resolvers that render the parameters alike, for each
number of parameters. -/
theorem shaped?_eq (hc : ∀ k ∈ c.constructors, k.RendersAlike resolver resolver') (arity : Nat) :
    c.shaped? resolver' settings arity = c.shaped? resolver settings arity :=
  List.find?_congr fun k hk => by rw [Constructor.takesContext_eq (hc k hk)]

/-- The construction from the context alone is the same under two resolvers that render the
parameters alike. -/
theorem contextOnly?_eq (hc : ∀ k ∈ c.constructors, k.RendersAlike resolver resolver') :
    c.contextOnly? resolver' settings = c.contextOnly? resolver settings := by
  rw [contextOnly?, contextOnly?, shaped?_eq hc]

/-- A construction from a payload is the same if there is one. -/
theorem payloadConstruction_of_rendersAlike {k : Constructor} {context payload : Parameter}
    (hpayload : ∀ r, resolver' payload = .ok r ↔ resolver payload = .ok r)
    {how : PayloadConstruction}
    (hhow : c.payloadConstruction resolver k context payload = .ok how) :
    c.payloadConstruction resolver' k context payload = .ok how := by
  unfold payloadConstruction at hhow ⊢
  cases hresolved : resolver payload with
  | error e =>
    rw [hresolved] at hhow
    exact nomatch hhow
  | ok type =>
    rw [hresolved] at hhow
    rw [(hpayload type).mpr hresolved]
    exact hhow

/-- The construction from the context and a payload is the same if the pass does not fail. -/
theorem parameterized_of_rendersAlike
    (hc : ∀ k ∈ c.constructors, k.RendersAlike resolver resolver')
    {found : Option PayloadConstruction}
    (hfound : c.parameterized resolver settings = .ok found) :
    c.parameterized resolver' settings = .ok found := by
  unfold parameterized at hfound ⊢
  rw [shaped?_eq hc]
  split
  · rename_i name context payload hshaped
    rw [hshaped] at hfound
    obtain ⟨how, hhow, rfl⟩ := map_eq_ok_iff.mp hfound
    have hk := hc _ (List.mem_of_find?_eq_some hshaped)
    refine map_eq_ok_iff.mpr ⟨how, ?_, rfl⟩
    exact payloadConstruction_of_rendersAlike (hk payload (by simp)) hhow
  · rename_i hother
    split at hfound
    · rename_i name context payload hshaped
      exact absurd hshaped (hother name context payload)
    · exact hfound

/-- The rule is the same if the pass does not fail. -/
theorem rule_of_rendersAlike (hc : ∀ k ∈ c.constructors, k.RendersAlike resolver resolver')
    {found : Option DispatchRule} (hfound : c.rule resolver settings = .ok found) :
    c.rule resolver' settings = .ok found := by
  rw [rule_eq] at hfound ⊢
  obtain ⟨how, hhow, hrule⟩ := map_eq_ok_iff.mp hfound
  refine map_eq_ok_iff.mpr ⟨how, parameterized_of_rendersAlike hc hhow, ?_⟩
  rwa [contextOnly?_eq hc]

end Candidate

namespace Selection

/-- What becomes of a candidate is the same if the pass does not fail. -/
theorem outcome_of_rendersAlike {c : Candidate}
    (hc : ∀ k ∈ c.constructors, k.RendersAlike resolver resolver')
    {found : Except Exclusion DispatchRule} (hfound : outcome c resolver settings = .ok found) :
    outcome c resolver' settings = .ok found := by
  have hsame : c.exclusion? resolver' settings = c.exclusion? resolver settings :=
    Candidate.exclusion?_eq hc
  cases hreason : c.exclusion? resolver settings with
  | some reason =>
    rw [outcome_of_excluded hreason] at hfound
    rwa [outcome_of_excluded (hsame.trans hreason)]
  | none =>
    rw [outcome_of_eligible hreason] at hfound
    rw [outcome_of_eligible (hsame.trans hreason)]
    obtain ⟨rule, hrule, hout⟩ := map_eq_ok_iff.mp hfound
    exact map_eq_ok_iff.mpr ⟨rule, Candidate.rule_of_rendersAlike hc hrule, hout⟩

/-- A selection by one resolver is the one by the other. -/
theorem ofCandidates_of_rendersAlike {cs : List Candidate}
    (hcs : ∀ c ∈ cs, ∀ k ∈ c.constructors, k.RendersAlike resolver resolver') {s : Selection}
    (hs : ofCandidates resolver settings cs = .ok s) :
    ofCandidates resolver' settings cs = .ok s := by
  obtain ⟨entries, hentries, rfl⟩ := ofCandidates_eq_ok_iff.mp hs
  refine ofCandidates_eq_ok_iff.mpr ⟨entries, ?_, rfl⟩
  refine ((List.forall₂_and_left cs entries).mpr ⟨hcs, hentries⟩).imp fun c entry hentry => ?_
  obtain ⟨hc, hentry⟩ := hentry
  obtain ⟨found, hfound, hout⟩ := map_eq_ok_iff.mp hentry
  exact map_eq_ok_iff.mpr ⟨found, outcome_of_rendersAlike hc hfound, hout⟩

end Selection

end ServiceDispatch
