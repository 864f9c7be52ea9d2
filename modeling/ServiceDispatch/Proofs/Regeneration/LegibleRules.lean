import ServiceDispatch.Proofs.Regeneration.Rereading

/-!
# Legible rules

The rules that a crate gives can be written and read again if the names in it are identifiers and
the parameters of its constructors can be read.
-/

namespace ServiceDispatch

/-- Whether the name of a constructor and the parts of its parameter types can be read. -/
structure Constructor.IsLegible (constructor : Constructor) : Prop where
  name : IsIdentifier constructor.name
  params : ∀ parameter ∈ constructor.params, ∀ type, Ty.ofText? parameter.target = some type →
    ∀ part ∈ type.parts, part.IsLegible

/-- A name is read as a type whose parts can be read. -/
theorem Ty.isLegible_parts_of_name {name : String} (hname : IsIdentifier name)
    (hplain : IsPlainName name) {type : Ty} (htype : ofText? name = some type) :
    ∀ part ∈ type.parts, part.IsLegible := by
  have hmembers : ∀ member ∈ ([] : List String), IsIdentifier member := List.forall_mem_nil _
  have hspells : Grammar.SpellsType name (.path false (Segment.ofNames .none [name])) :=
    Grammar.spellsType_names hname.1 (.inr hname.2) hmembers
      (fun h => absurd (h ▸ by decide) hname.2) (by simp) Grammar.spellsArgs_none
  obtain rfl := Option.some.inj (htype.symm.trans hspells.ofText?)
  intro part hpart
  obtain rfl := List.mem_singleton.mp hpart
  intro member hmember
  rw [Segment.map_name_ofNames, UsePath.memberNames_of_plain hplain, List.mem_singleton] at hmember
  rw [hmember]
  exact hname

namespace Feed

variable {settings : Settings} {sources : List Source}

/-- The type of a candidate can be read, if all names in the sources are identifiers. -/
theorem exists_isLegible_of_mem_candidates
    (hsources : ∀ source ∈ sources, source.NamedBy IsIdentifier) {c : Candidate}
    (hc : c ∈ (ofSources settings sources).candidates) :
    ∃ first names, c.name.IsLegible first names := by
  rw [candidates_eq_map] at hc
  obtain ⟨type, htype, rfl⟩ := List.mem_map.mp hc
  exact ((connected_ofSources hsources).isSteady_of_item (hasItem_of_mem_types htype)).1

/-- What the type of a legible parameter resolves to can be read. -/
theorem exists_spellsType_of_mem_candidates
    (hsources : ∀ source ∈ sources, source.NamedBy IsIdentifier) {c : Candidate}
    (hc : c ∈ (ofSources settings sources).candidates) {constructor : Constructor}
    (hmem : constructor ∈ c.constructors) (hconstructor : constructor.IsLegible)
    {parameter : Parameter} (hparameter : parameter ∈ constructor.params) {r : String}
    (hr : Resolver.ofTable (ofSources settings sources).symbols parameter = .ok r) :
    ∃ type, Grammar.SpellsType r type := by
  have hcrate : ∀ source ∈ sources, source.module.InCrate := fun source hsource =>
    ItemPath.MadeOf.inCrate (hsources source hsource).module fun _ h => h.isSegment
  have hscope := inCrate_scope_of_mem_candidates hcrate hc hmem hparameter
  rw [Resolver.ofTable] at hr
  cases htype : Ty.ofText? parameter.target with
  | none =>
    rw [htype] at hr
    cases hr
  | some type =>
    rw [htype] at hr
    exact (connected_ofSources hsources).exists_spellsType hscope
      (hconstructor.params parameter hparameter type htype) hr

end Feed

/-- The rules of an artifact can be written and read again. -/
theorem Artifact.isLegible_of_mem_table {settings : Settings} {sources : List Source}
    (hsources : ∀ source ∈ sources, source.NamedBy IsIdentifier)
    (hconstructors : ∀ c ∈ (Feed.ofSources settings sources).candidates,
      ∀ constructor ∈ c.constructors, constructor.IsLegible) {artifact : Artifact}
    (hartifact : ofFeed settings (Feed.ofSources settings sources) = .ok artifact) :
    ∀ rule ∈ artifact.table, rule.IsLegible := by
  intro rule hrule
  obtain ⟨c, hc, htarget, hcontext, hpayload⟩ := exists_rule_of_mem_table hartifact hrule
  refine ⟨?_, fun how hhow => ?_, fun how hhow => ?_⟩
  · rw [htarget]
    exact Feed.exists_isLegible_of_mem_candidates hsources hc
  · obtain ⟨context, hmem, -⟩ := Candidate.constructor_of_contextOnly? (hcontext.symm.trans hhow)
    exact (hconstructors c hc _ hmem).name
  · rw [hhow] at hpayload
    obtain ⟨context, payload, hmem, -, -, -, htype, -⟩ :=
      Candidate.constructor_of_parameterized hpayload
    have hconstructor := hconstructors c hc _ hmem
    exact ⟨hconstructor.name, Feed.exists_spellsType_of_mem_candidates hsources hc hmem
      hconstructor (by simp) htype⟩

end ServiceDispatch
