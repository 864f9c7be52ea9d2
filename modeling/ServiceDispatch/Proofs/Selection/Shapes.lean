import ServiceDispatch.Proofs.Soundness.Rules

/-!
# Shapes of constructors

Two shapes of constructors can be dispatched to, and of each shape the first constructor counts.
All other constructors may come, go and change places, and so may constructors of different shapes
among each other. A payload type that cannot be dispatched on is an error in the first constructor
of its shape and nowhere else.
-/

namespace ServiceDispatch

variable {resolver : Resolver} {settings : Settings}

namespace Constructor

/-- Whether a constructor takes the context alone, or the context and one payload. -/
def IsDispatchable (constructor : Constructor) (resolver : Resolver) (settings : Settings) : Prop :=
  constructor.takesContext resolver settings ∧ (constructor.arity = 1 ∨ constructor.arity = 2)

/-- Whether a constructor takes the context and has a number of parameters. -/
def hasShape (resolver : Resolver) (settings : Settings) (arity : Nat)
    (constructor : Constructor) : Bool :=
  constructor.arity == arity && constructor.takesContext resolver settings

/-- A constructor that can be dispatched to has one of two shapes. -/
theorem hasShape_eq_false {constructor : Constructor}
    (hirrelevant : ¬ constructor.IsDispatchable resolver settings) {arity : Nat}
    (harity : arity = 1 ∨ arity = 2) : constructor.hasShape resolver settings arity = false := by
  rw [hasShape, Bool.eq_false_iff, ne_eq, Bool.and_eq_true, beq_iff_eq]
  rintro ⟨rfl, htakes⟩
  exact hirrelevant ⟨htakes, harity⟩

/-- A constructor with another number of parameters does not have a shape. -/
theorem hasShape_eq_false_of_ne {constructor : Constructor} {arity : Nat}
    (hne : constructor.arity ≠ arity) : constructor.hasShape resolver settings arity = false := by
  rw [hasShape, beq_eq_false_iff_ne.mpr hne, Bool.false_and]

/-- Constructors that take the context have the same shape if they have equally many parameters. -/
theorem hasShape_congr {constructor constructor' : Constructor}
    (htakes : constructor.takesContext resolver settings)
    (htakes' : constructor'.takesContext resolver settings)
    (harity : constructor.arity = constructor'.arity) (arity : Nat) :
    constructor.hasShape resolver settings arity =
      constructor'.hasShape resolver settings arity := by
  rw [hasShape, hasShape, harity, htakes, htakes']

/-- A chain of changes to a list of constructors: one that cannot be dispatched to comes or goes,
one with a single parameter changes places with a neighbour that has two, or one that takes the
context comes or goes behind another one with as many parameters that takes it. -/
inductive Rearranged (resolver : Resolver) (settings : Settings) :
    List Constructor → List Constructor → Prop where
  | refl (cs : List Constructor) : Rearranged resolver settings cs cs
  | symm {cs cs' : List Constructor} (h : Rearranged resolver settings cs cs') :
      Rearranged resolver settings cs' cs
  | trans {cs cs' cs'' : List Constructor} (h : Rearranged resolver settings cs cs')
      (h' : Rearranged resolver settings cs' cs'') : Rearranged resolver settings cs cs''
  | cons (constructor : Constructor) {cs cs' : List Constructor}
      (h : Rearranged resolver settings cs cs') :
      Rearranged resolver settings (constructor :: cs) (constructor :: cs')
  | irrelevant {constructor : Constructor}
      (hirrelevant : ¬ constructor.IsDispatchable resolver settings) (cs : List Constructor) :
      Rearranged resolver settings cs (constructor :: cs)
  | swap {one two : Constructor} (hone : one.arity = 1) (htwo : two.arity = 2)
      (cs : List Constructor) :
      Rearranged resolver settings (one :: two :: cs) (two :: one :: cs)
  | later {first constructor : Constructor} (hfirst : first.takesContext resolver settings)
      (htakes : constructor.takesContext resolver settings)
      (harity : constructor.arity = first.arity) (front back : List Constructor) :
      Rearranged resolver settings (first :: (front ++ back))
        (first :: (front ++ constructor :: back))

/-- A rearrangement keeps the first constructor of each shape that can be dispatched to. -/
theorem Rearranged.find?_eq {cs cs' : List Constructor} (h : Rearranged resolver settings cs cs')
    {arity : Nat} (harity : arity = 1 ∨ arity = 2) :
    cs.find? (hasShape resolver settings arity) = cs'.find? (hasShape resolver settings arity) := by
  induction h with
  | refl cs => rfl
  | symm h ih => exact ih.symm
  | trans h h' ih ih' => exact ih.trans ih'
  | cons constructor h ih => rw [List.find?_cons, List.find?_cons, ih]
  | irrelevant hirrelevant cs => rw [List.find?_cons, hasShape_eq_false hirrelevant harity]
  | @swap one two hone htwo cs =>
    rcases harity with rfl | rfl
    · have hshape : two.hasShape resolver settings 1 = false := hasShape_eq_false_of_ne (by omega)
      simp only [List.find?_cons, hshape]
    · have hshape : one.hasShape resolver settings 2 = false := hasShape_eq_false_of_ne (by omega)
      simp only [List.find?_cons, hshape]
  | @later first constructor hfirst htakes hsame front back =>
    rw [List.find?_cons, List.find?_cons, ← hasShape_congr htakes hfirst hsame]
    cases hshape : constructor.hasShape resolver settings arity with
    | true => rfl
    | false => simp only [List.find?_append, List.find?_cons, hshape]

end Constructor

/-- Whether a parameter cannot be dispatched on for a reason: its type is not found, or it is found
and has no size of its own. -/
def Parameter.IsNoPayload (payload : Parameter) (resolver : Resolver) (reason : ResolveError) :
    Prop :=
  resolver payload = .error reason ∨
    ∃ type, resolver payload = .ok type ∧ isUnsized type ∧ reason = .unsized type

namespace Candidate

open Constructor (Rearranged)
open Results (map_eq_error_iff map_eq_ok_iff)

/-- Whether a constructor is the first one of a candidate that has a number of parameters and takes
the context. -/
def IsFirst (c : Candidate) (resolver : Resolver) (settings : Settings) (arity : Nat)
    (constructor : Constructor) : Prop :=
  ∃ front back, c.constructors = front ++ constructor :: back ∧
    (constructor.arity = arity ∧ constructor.takesContext resolver settings) ∧
    ∀ other ∈ front, other.arity = arity → ¬ other.takesContext resolver settings

variable {c : Candidate}

/-- The constructor of a shape is the first one with it. -/
theorem shaped?_eq_some_iff {arity : Nat} {constructor : Constructor} :
    c.shaped? resolver settings arity = some constructor ↔
      c.IsFirst resolver settings arity constructor := by
  rw [shaped?, List.find?_eq_some_iff_append, Bool.and_eq_true, beq_iff_eq, IsFirst]
  constructor
  · rintro ⟨hshape, front, back, hsplit, hfront⟩
    refine ⟨front, back, hsplit, hshape, fun other hother harity htakes => ?_⟩
    have hother := hfront other hother
    rw [Bool.not_eq_true', Bool.and_eq_false_iff] at hother
    rcases hother with hother | hother
    · exact absurd harity (by simpa using hother)
    · exact absurd htakes (by simpa using hother)
  · rintro ⟨front, back, hsplit, hshape, hfront⟩
    refine ⟨hshape, front, back, hsplit, fun other hother => ?_⟩
    rw [Bool.not_eq_true', Bool.and_eq_false_iff]
    by_cases harity : other.arity = arity
    · exact .inr (Bool.eq_false_iff.mpr (hfront other hother harity))
    · exact .inl (by simpa using harity)

/-! ## Constructions -/

/-- The first constructor with one parameter gives the construction from the context. -/
theorem contextOnly?_eq_some_iff {how : ContextConstruction} :
    c.contextOnly? resolver settings = some how ↔
      ∃ context, c.IsFirst resolver settings 1 ⟨how.constructor, [context]⟩ ∧
        how.context = context.passing := by
  simp only [← shaped?_eq_some_iff]
  constructor
  · exact shaped?_of_contextOnly?
  · rintro ⟨context, hshaped, hpassing⟩
    rw [contextOnly?, hshaped]
    dsimp only
    rw [← hpassing]

/-- A construction from a payload fails if the payload cannot be dispatched on. -/
theorem payloadConstruction_eq_error_iff {constructor : Constructor} {context payload : Parameter}
    {e : UnresolvedPayload} :
    c.payloadConstruction resolver constructor context payload = .error e ↔
      ∃ reason, payload.IsNoPayload resolver reason ∧
        e = ⟨c.name, constructor.name, payload.written, reason⟩ := by
  unfold payloadConstruction Parameter.IsNoPayload
  cases htype : resolver payload with
  | error reason =>
    constructor
    · intro he
      exact ⟨reason, .inl rfl, (Except.error.inj he).symm⟩
    · rintro ⟨reason', hreason | ⟨type, htype, -⟩, rfl⟩
      · rw [Except.error.inj hreason]
      · exact nomatch htype
  | ok type =>
    by_cases hunsized : isUnsized type
    · simp only [hunsized, if_true, Except.error.injEq]
      constructor
      · rintro rfl
        exact ⟨.unsized type, .inr ⟨type, rfl, hunsized, rfl⟩, rfl⟩
      · rintro ⟨reason, hreason | ⟨type', htype', -, rfl⟩, rfl⟩
        · exact nomatch hreason
        · rw [Except.ok.inj htype']
    · simp only [hunsized]
      refine ⟨(nomatch ·), ?_⟩
      rintro ⟨reason, hreason | ⟨type', htype', hunsized', -⟩, -⟩
      · exact nomatch hreason
      · exact absurd (Except.ok.inj htype' ▸ hunsized') hunsized

/-- What is constructed from a payload has the passing modes of the constructor and the type that
the payload is found to have. -/
theorem payloadConstruction_eq_ok_iff {constructor : Constructor} {context payload : Parameter}
    {how : PayloadConstruction} :
    c.payloadConstruction resolver constructor context payload = .ok how ↔
      resolver payload = .ok how.payloadType ∧ isUnsized how.payloadType = false ∧
        how.constructor = constructor.name ∧ how.context = context.passing ∧
        how.payload = payload.passing := by
  obtain ⟨name, contextPassing, payloadPassing, payloadType⟩ := how
  unfold payloadConstruction
  cases htype : resolver payload with
  | error reason => exact ⟨(nomatch ·), (nomatch ·.1)⟩
  | ok type =>
    by_cases hunsized : isUnsized type
    · simp only [hunsized, if_true]
      refine ⟨(nomatch ·), ?_⟩
      rintro ⟨hsame, hsized, -⟩
      rw [← Except.ok.inj hsame, hunsized] at hsized
      exact nomatch hsized
    · rw [Bool.not_eq_true] at hunsized
      simp only [hunsized, Bool.false_eq_true, if_false, Except.ok.injEq,
        PayloadConstruction.mk.injEq]
      constructor
      · rintro ⟨rfl, rfl, rfl, rfl⟩
        exact ⟨rfl, hunsized, rfl, rfl, rfl⟩
      · rintro ⟨rfl, -, rfl, rfl, rfl⟩
        exact ⟨rfl, rfl, rfl, rfl⟩

/-- The first constructor with two parameters decides about the construction from a payload. -/
theorem parameterized_eq_iff {outcome : Except UnresolvedPayload PayloadConstruction} :
    c.parameterized resolver settings = outcome.map some ↔
      ∃ name context payload, c.IsFirst resolver settings 2 ⟨name, [context, payload]⟩ ∧
        c.payloadConstruction resolver ⟨name, [context, payload]⟩ context payload = outcome := by
  constructor
  · intro houtcome
    cases hshaped : c.shaped? resolver settings 2 with
    | none =>
      rw [parameterized_eq_none_iff.mpr hshaped] at houtcome
      cases outcome <;> exact nomatch houtcome
    | some constructor =>
      obtain ⟨-, harity, -⟩ := shaped?_eq_some hshaped
      obtain ⟨name, params⟩ := constructor
      obtain ⟨context, payload, rfl⟩ := List.length_eq_two.mp harity
      refine ⟨name, context, payload, shaped?_eq_some_iff.mp hshaped, ?_⟩
      rw [parameterized, hshaped] at houtcome
      dsimp only at houtcome
      cases outcome with
      | error e => exact map_eq_error_iff.mp houtcome
      | ok how =>
        obtain ⟨how', hhow, hsame⟩ := map_eq_ok_iff.mp houtcome
        rw [hhow, Option.some.inj hsame]
  · rintro ⟨name, context, payload, hfirst, rfl⟩
    rw [parameterized, shaped?_eq_some_iff.mpr hfirst]

/-! ## Rules -/

/-- What the rule of a candidate is, in terms of the first constructor of each shape. -/
structure IsDecidedByFirst (c : Candidate) (resolver : Resolver) (settings : Settings) : Prop where
  target_eq : ∀ rule, c.rule resolver settings = .ok (some rule) → rule.target = c.name
  /-- A construction from the context calls the first constructor that takes it alone, with its
  passing mode. -/
  contextOnly_iff : ∀ rule, c.rule resolver settings = .ok (some rule) →
    ∀ how, rule.contextOnly = some how ↔
      ∃ context, c.IsFirst resolver settings 1 ⟨how.constructor, [context]⟩ ∧
        how.context = context.passing
  /-- A construction from a payload calls the first constructor that takes the context and a
  payload, with its passing modes and the type of its payload. -/
  parameterized_iff : ∀ rule, c.rule resolver settings = .ok (some rule) →
    ∀ how, rule.parameterized = some how ↔
      ∃ context payload, c.IsFirst resolver settings 2 ⟨how.constructor, [context, payload]⟩ ∧
        how.context = context.passing ∧ how.payload = payload.passing ∧
        resolver payload = .ok how.payloadType ∧ isUnsized how.payloadType = false
  /-- There is an error exactly if the payload of the first constructor that takes the context and a
  payload cannot be dispatched on, no matter what other constructors there are. -/
  error_iff : ∀ e, c.rule resolver settings = .error e ↔
    ∃ name context payload reason, c.IsFirst resolver settings 2 ⟨name, [context, payload]⟩ ∧
      payload.IsNoPayload resolver reason ∧ e = ⟨c.name, name, payload.written, reason⟩
  /-- There is no rule exactly if no constructor can be dispatched to. -/
  none_iff : c.rule resolver settings = .ok none ↔
    ∀ constructor ∈ c.constructors, ¬ constructor.IsDispatchable resolver settings

/-- The first constructors decide about every candidate, for any resolver and any settings. The
clauses on the context, on the payload and on the failure are proved one after the other. -/
theorem isDecidedByFirst (c : Candidate) (resolver : Resolver) (settings : Settings) :
    c.IsDecidedByFirst resolver settings where
  target_eq rule hrule := (rule_eq_some hrule).1
  contextOnly_iff rule hrule how := by
    rw [(rule_eq_some hrule).2.1, contextOnly?_eq_some_iff]
  parameterized_iff rule hrule how := by
    have hall : rule.parameterized = some how ↔
        c.parameterized resolver settings = (Except.ok how).map some := by
      rw [(rule_eq_some hrule).2.2, Except.map, Except.ok.injEq]
    rw [hall, parameterized_eq_iff]
    simp only [payloadConstruction_eq_ok_iff]
    constructor
    · rintro ⟨name, context, payload, hfirst, htype, hsized, rfl, hcontext, hpayload⟩
      exact ⟨context, payload, hfirst, hcontext, hpayload, htype, hsized⟩
    · rintro ⟨context, payload, hfirst, hcontext, hpayload, htype, hsized⟩
      exact ⟨_, context, payload, hfirst, htype, hsized, rfl, hcontext, hpayload⟩
  error_iff e := by
    have hall : c.rule resolver settings = .error e ↔
        c.parameterized resolver settings = (Except.error e).map some := by
      rw [rule_eq, map_eq_error_iff, Except.map]
    rw [hall, parameterized_eq_iff]
    simp only [payloadConstruction_eq_error_iff]
    constructor
    · rintro ⟨name, context, payload, hfirst, reason, hreason, he⟩
      exact ⟨name, context, payload, reason, hfirst, hreason, he⟩
    · rintro ⟨name, context, payload, reason, hfirst, hreason, he⟩
      exact ⟨name, context, payload, hfirst, reason, hreason, he⟩
  none_iff := by
    rw [rule_eq_none_iff]
    refine forall₂_congr fun constructor _ => ?_
    constructor
    · rintro harity ⟨htakes, hdispatchable⟩
      have hthree := harity htakes
      omega
    · intro hirrelevant htakes
      have hpos := Constructor.arity_pos htakes
      have hne : ¬ (constructor.arity = 1 ∨ constructor.arity = 2) :=
        fun harity => hirrelevant ⟨htakes, harity⟩
      omega

/-- A candidate with rearranged constructors has the same rule, none, or the same error. -/
theorem rule_eq_of_rearranged {constructors : List Constructor}
    (h : Rearranged resolver settings c.constructors constructors) :
    ({ c with constructors } : Candidate).rule resolver settings = c.rule resolver settings := by
  have hshaped {arity : Nat} (harity : arity = 1 ∨ arity = 2) :
      ({ c with constructors } : Candidate).shaped? resolver settings arity =
        c.shaped? resolver settings arity := (h.find?_eq harity).symm
  have hparameterized : ({ c with constructors } : Candidate).parameterized resolver settings =
      c.parameterized resolver settings := by
    rw [parameterized, parameterized, hshaped (.inr rfl)]
    rfl
  have hcontext : ({ c with constructors } : Candidate).contextOnly? resolver settings =
      c.contextOnly? resolver settings := by
    rw [contextOnly?, contextOnly?, hshaped (.inl rfl)]
  rw [rule_eq, rule_eq, hparameterized, hcontext]

/-- The first constructors decide about the rule of a candidate, and rearranged constructors give
the same one. This holds for every way to resolve types; constructors that cannot be dispatched to
may come and go, and so may later ones of a shape. -/
theorem rule_decided_by_first (c : Candidate) (resolver : Resolver) (settings : Settings) :
    c.IsDecidedByFirst resolver settings ∧
      ∀ constructors, Rearranged resolver settings c.constructors constructors →
        ({ c with constructors } : Candidate).rule resolver settings = c.rule resolver settings :=
  ⟨isDecidedByFirst c resolver settings, fun _ h => rule_eq_of_rearranged h⟩

/-! ## A service with rearranged constructors -/

/-- A parameter whose type is written without a path in the crate. -/
def plainParameter (target : String) (passing : Passing) : Parameter :=
  ⟨target, target, passing, .root⟩

/-- A service that is made without the context, from a payload or from the context alone. -/
def loginService : Candidate where
  name := ⟨"crate::hos::LoginService"⟩
  constructors := [⟨"offline", []⟩,
    ⟨"open", [plainParameter "ServiceCtx" .shared, plainParameter "UserId" .value]⟩,
    ⟨"new", [plainParameter "ServiceCtx" .mutable]⟩]

/-- Other constructors in another order: one without the context is gone, and there is a further one
with a payload that nobody knows. -/
def loginConstructors : List Constructor := [
  ⟨"new", [plainParameter "ServiceCtx" .mutable]⟩,
  ⟨"open", [plainParameter "ServiceCtx" .shared, plainParameter "UserId" .value]⟩,
  ⟨"load", [plainParameter "ServiceCtx" .shared, plainParameter "Snapshot" .value]⟩]

/-- The types that are known. -/
def loginTypes : Resolver :=
  .ofList [("ServiceCtx", "crate::hos::ServiceCtx"), ("UserId", "u64")]

/-- The one list of constructors comes from the other one by moves that keep the first constructor
of each shape. -/
theorem rearranged_loginConstructors :
    Rearranged loginTypes {} loginService.constructors loginConstructors := by
  have hoffline : ¬ Constructor.IsDispatchable ⟨"offline", []⟩ loginTypes {} := fun h => nomatch h.1
  refine .trans (Rearranged.irrelevant hoffline _).symm ?_
  refine .trans (Rearranged.swap rfl rfl []).symm (.cons _ (.later ?_ ?_ ?_ [] []))
  · decide
  · decide
  · rfl

/-- Both lists of constructors give the same rule: the first constructors of each shape are the
same, and what stands between them does not matter. -/
theorem rule_loginConstructors :
    ({ loginService with constructors := loginConstructors } : Candidate).rule loginTypes {} =
        loginService.rule loginTypes {} ∧
      loginService.rule loginTypes {} = .ok (some ⟨⟨"crate::hos::LoginService"⟩,
        some ⟨"new", .mutable⟩, some ⟨"open", .shared, .value, "u64"⟩⟩) :=
  ⟨(rule_decided_by_first loginService loginTypes {}).2 _ rearranged_loginConstructors,
    by decide⟩

end Candidate
end ServiceDispatch
