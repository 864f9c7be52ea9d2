import ServiceDispatch.Proofs.Soundness.Constructors

/-!
# Types of emitted calls

The generated function hands a constructor its context, which it has as a mutable reference, and the
payload, which it owns in a box. An argument is written by how its parameter is passed, which is
read off the declared type, while the type behind the reference is resolved by itself. The two fit
together in every call, except that a reference to a local value never lives as long as `'static`.
-/

namespace ServiceDispatch

/-! ## Argument expressions -/

/-- The type of a value in the generated function, by the rendered type that it has or holds. -/
inductive ValueType where
  | owned (type : String)
  | reference (isStatic mutable : Bool) (type : String)
  /-- A box in a local variable, which may be mutable. -/
  | boxed (mutable : Bool) (type : String)
deriving DecidableEq

namespace ValueType

/-- Whether a value of one type can be handed over as one of another. A reference that lives longer
than demanded will do. -/
def Fits : ValueType → ValueType → Prop
  | .owned own, .owned declared => own = declared
  | .reference isStatic mutable own, .reference isStatic' mutable' declared =>
    own = declared ∧ mutable = mutable' ∧ (isStatic' → isStatic)
  | _, _ => False

end ValueType

/-- The local variables of a branch: the context behind a mutable reference, and the payload, if it
has been downcast to a type, in a variable that may be mutable. -/
structure Locals where
  context : String
  payload : Option (Bool × String)

/-- An argument of a call. -/
inductive Argument where
  | context
  | parameter
  /-- The value in a box. -/
  | moved (of : Argument)
  /-- A new reference to what a reference or a box leads to. -/
  | reborrowed (mutable : Bool) (of : Argument)
  | cloned (of : Argument)

namespace Argument

/-- The text of an argument. -/
def text : Argument → String
  | .context => "context"
  | .parameter => "parameter"
  | .moved of => "*" ++ of.text
  | .reborrowed false of => "&*" ++ of.text
  | .reborrowed true of => "&mut *" ++ of.text
  | .cloned of => "::std::clone::Clone::clone(" ++ of.text ++ ")"

/-- The type of an argument, if it has one. No reference to a local value is static, and only a
mutable one, or a box in a mutable variable, leads to a value that may be changed. -/
def type? (locals : Locals) : Argument → Option ValueType
  | .context => some (.reference false true locals.context)
  | .parameter => locals.payload.map fun (mutable, type) => .boxed mutable type
  | .moved of =>
    match of.type? locals with
    | some (.boxed _ type) => some (.owned type)
    | _ => none
  | .reborrowed mutable of =>
    match of.type? locals with
    | some (.reference _ changes type) | some (.boxed changes type) =>
      if mutable && !changes then none else some (.reference false mutable type)
    | _ => none
  | .cloned of =>
    match of.type? locals with
    | some (.reference _ false type) => some (.owned type)
    | _ => none

/-- The argument for a context that is passed in some way. -/
def ofContext : Passing → Argument
  | .value => .cloned (.reborrowed false .context)
  | .shared => .reborrowed false .context
  | .mutable => .reborrowed true .context

/-- The argument for a payload that is passed in some way. -/
def ofPayload : Passing → Argument
  | .value => .moved .parameter
  | .shared => .reborrowed false .parameter
  | .mutable => .reborrowed true .parameter

/-- The argument for a context is written as such, in every passing mode. -/
theorem text_ofContext (passing : Passing) :
    (ofContext passing).text = Wording.contextArgument passing := by
  cases passing <;> rfl

/-- The argument for a payload is written as such, in every passing mode. -/
theorem text_ofPayload (passing : Passing) :
    (ofPayload passing).text = Wording.payloadArgument passing := by
  cases passing <;> rfl

end Argument

/-- The local variables of the branch that constructs from the context. -/
def Settings.locals (settings : Settings) : Locals := ⟨settings.contextType.text, none⟩

/-- The local variables of the branch that constructs from a payload, by the words that bind it. -/
def PayloadConstruction.locals (how : PayloadConstruction) (settings : Settings) : Locals :=
  ⟨settings.contextType.text,
    some (Wording.payloadBinding how.payload == "let mut parameter", how.payloadType)⟩

/-! ## Declared types -/

namespace Ty

/-- A declared type without an outer reference. -/
def referent : Ty → Ty
  | .reference _ _ target => target
  | t => t

/-- Whether a declared type is a reference with the lifetime `'static`. -/
def isStaticReference : Ty → Bool
  | .reference lifetime _ _ => lifetime == some "static"
  | _ => false

/-- A declared type whose type without an outer reference is rendered in some way. -/
def valueType (rendered : String) : Ty → ValueType
  | .reference lifetime mutable _ => .reference (lifetime == some "static") mutable rendered
  | _ => .owned rendered

end Ty

/-- Whether an argument can be handed over for a parameter of a declared type. -/
def Argument.Fits (argument : Argument) (locals : Locals) (declared : ValueType) : Prop :=
  ∃ own, argument.type? locals = some own ∧ own.Fits declared

/-- How a parameter of a declared type is passed, and what it refers to: by value exactly if the
type is no reference, and otherwise by a reference of its kind, to a type that resolves to the
stated one in the module of the declaration. -/
structure Ty.PassedAs (table : SymbolTable) (place : ItemPath) (rendered : String)
    (declared : Ty) (passing : Passing) : Prop where
  value : passing = .value ↔
    ∀ lifetime mutable target, declared ≠ .reference lifetime mutable target
  shared : passing = .shared ↔ ∃ lifetime target, declared = .reference lifetime false target
  mutable : passing = .mutable ↔ ∃ lifetime target, declared = .reference lifetime true target
  resolves : Resolver.ofTable table
    ⟨declared.text, declared.referent.text, passing, place⟩ = .ok rendered

namespace Parameter

/-- A parameter of a declared type is passed as the type says. -/
theorem passedAs_ofTy {table : SymbolTable} {place : ItemPath} {rendered : String} {declared : Ty}
    (hresolves : Resolver.ofTable table (.ofTy declared place) = .ok rendered) :
    declared.PassedAs table place rendered (Parameter.ofTy declared place).passing := by
  cases declared with
  | reference lifetime mutable target =>
    cases mutable with
    | false => exact ⟨by simp [ofTy], by simp [ofTy], by simp [ofTy], hresolves⟩
    | true => exact ⟨by simp [ofTy], by simp [ofTy], by simp [ofTy], hresolves⟩
  | _ => exact ⟨by simp [ofTy], by simp [ofTy], by simp [ofTy], hresolves⟩

end Parameter

/-- The argument for a context fits a declared type exactly if this is no static reference. -/
theorem Argument.fits_ofContext_iff (place : ItemPath) (locals : Locals) (declared : Ty) :
    (ofContext (Parameter.ofTy declared place).passing).Fits locals
        (declared.valueType locals.context) ↔ declared.isStaticReference = false := by
  cases declared with
  | reference lifetime mutable target =>
    cases mutable <;> simp [Parameter.ofTy, ofContext, Fits, type?, Ty.valueType, ValueType.Fits,
      Ty.isStaticReference]
  | _ => simp [Parameter.ofTy, ofContext, Fits, type?, Ty.valueType, ValueType.Fits,
      Ty.isStaticReference]

/-- The argument for a payload fits a declared type exactly if this is no static reference. -/
theorem Argument.fits_ofPayload_iff (place : ItemPath) (settings : Settings) (declared : Ty)
    {how : PayloadConstruction} (hhow : how.payload = (Parameter.ofTy declared place).passing) :
    (ofPayload how.payload).Fits (how.locals settings) (declared.valueType how.payloadType) ↔
      declared.isStaticReference = false := by
  rw [PayloadConstruction.locals, hhow]
  cases declared with
  | reference lifetime mutable target =>
    cases mutable <;> simp [Parameter.ofTy, ofPayload, Fits, type?, Ty.valueType, ValueType.Fits,
      Ty.isStaticReference, Wording.payloadBinding]
  | _ => simp [Parameter.ofTy, ofPayload, Fits, type?, Ty.valueType, ValueType.Fits,
      Ty.isStaticReference]

/-! ## Calls -/

/-- Whether a parameter of a declared type is passed as the type says, and the argument that is
written for it fits unless the type is a static reference. -/
structure Ty.Receives (table : SymbolTable) (place : ItemPath) (rendered : String) (declared : Ty)
    (passing : Passing) (argument : Argument) (locals : Locals) : Prop
    extends declared.PassedAs table place rendered passing where
  fits : argument.Fits locals (declared.valueType rendered) ↔ declared.isStaticReference = false

/-- Whether a construction from the context calls the first function of a candidate that takes the
context alone, with an argument that its declared type receives. -/
def ContextConstruction.CallsFirst (settings : Settings) (sources : List Source) (c : Candidate)
    (how : ContextConstruction) : Prop :=
  let symbols := (Feed.ofSources settings sources).symbols
  let handed := Argument.ofContext how.context
  ∃ (f : AttachedFunction settings sources c.name) (declared : Ty),
    c.shaped? (.ofTable symbols) settings 1 = some (f.method.constructor f.place) ∧
    f.method.params = [declared] ∧
    how.call c.name = c.name.text ++ "::" ++ f.method.name ++ "(" ++ handed.text ++ ")" ∧
    declared.Receives symbols f.place settings.contextType.text how.context handed settings.locals

/-- Whether a construction from a payload calls the first function of a candidate that takes the
context and one more parameter, with arguments that their declared types receive. -/
def PayloadConstruction.CallsFirst (settings : Settings) (sources : List Source) (c : Candidate)
    (how : PayloadConstruction) : Prop :=
  let symbols := (Feed.ofSources settings sources).symbols
  let handed := Argument.ofContext how.context
  let given := Argument.ofPayload how.payload
  ∃ (f : AttachedFunction settings sources c.name) (first second : Ty),
    c.shaped? (.ofTable symbols) settings 2 = some (f.method.constructor f.place) ∧
    f.method.params = [first, second] ∧
    how.call c.name = c.name.text ++ "::" ++ f.method.name ++ "(" ++ handed.text ++ ", " ++
      given.text ++ ")" ∧
    first.Receives symbols f.place settings.contextType.text how.context handed
      (how.locals settings) ∧
    second.Receives symbols f.place how.payloadType how.payload given (how.locals settings)

namespace Feed

variable {settings : Settings} {sources : List Source} {c : Candidate}

/-- A constructor of a candidate that has a shape is a function of the sources that takes the
context. -/
theorem exists_function_of_shaped? (hc : c ∈ (ofSources settings sources).candidates)
    {resolver : Resolver} {arity : Nat} {name : String} {first : Parameter} {rest : List Parameter}
    (hshaped : c.shaped? resolver settings arity = some ⟨name, first :: rest⟩) :
    ∃ f : AttachedFunction settings sources c.name, f.method.name = name ∧
      f.method.params.map (Parameter.ofTy · f.place) = first :: rest ∧
      resolver first = .ok settings.contextType.text := by
  obtain ⟨hmem, -, htakes⟩ := Candidate.shaped?_eq_some hshaped
  obtain ⟨f, hf⟩ := (mem_constructors_iff hc).mp hmem
  obtain ⟨hname, hparams⟩ := Constructor.mk.inj hf
  exact ⟨f, hname.symm, hparams.symm, Candidate.resolver_of_takesContext htakes⟩

/-- A construction from the context calls a function of the sources as this declares it. -/
theorem callsFirst_of_contextOnly? (hc : c ∈ (ofSources settings sources).candidates)
    {how : ContextConstruction} (hhow : c.contextOnly?
      (.ofTable (ofSources settings sources).symbols) settings = some how) :
    how.CallsFirst settings sources c := by
  obtain ⟨context, hshaped, hpassing⟩ := Candidate.shaped?_of_contextOnly? hhow
  obtain ⟨f, hname, hparams, hresolves⟩ := exists_function_of_shaped? hc hshaped
  obtain ⟨declared, hdeclared, rfl⟩ := List.map_eq_singleton_iff.mp hparams
  refine ⟨f, declared, ?_, hdeclared, ?_, ?_⟩
  · rw [hshaped, MethodDecl.constructor, hparams, hname]
  · rw [ContextConstruction.call, hname, Argument.text_ofContext]
  · rw [hpassing]
    exact ⟨Parameter.passedAs_ofTy hresolves,
      Argument.fits_ofContext_iff f.place settings.locals declared⟩

/-- A construction from a payload calls a function of the sources as this declares it. -/
theorem callsFirst_of_parameterized (hc : c ∈ (ofSources settings sources).candidates)
    {how : PayloadConstruction} (hhow : c.parameterized
      (.ofTable (ofSources settings sources).symbols) settings = .ok (some how)) :
    how.CallsFirst settings sources c := by
  obtain ⟨context, payload, hshaped, hcontext, hpayload, htype, -⟩ :=
    Candidate.shaped?_of_parameterized hhow
  obtain ⟨f, hname, hparams, hresolves⟩ := exists_function_of_shaped? hc hshaped
  obtain ⟨first, rest, hdeclared, rfl, hrest⟩ := List.map_eq_cons_iff.mp hparams
  obtain ⟨second, rfl, rfl⟩ := List.map_eq_singleton_iff.mp hrest
  refine ⟨f, first, second, ?_, hdeclared, ?_, ?_, ?_⟩
  · rw [hshaped, MethodDecl.constructor, hparams, hname]
  · rw [PayloadConstruction.call, hname, Argument.text_ofContext, Argument.text_ofPayload]
  · rw [hcontext]
    exact ⟨Parameter.passedAs_ofTy hresolves,
      Argument.fits_ofContext_iff f.place (how.locals settings) first⟩
  · refine ⟨?_, Argument.fits_ofPayload_iff f.place settings second hpayload⟩
    rw [hpayload]
    exact Parameter.passedAs_ofTy htype

end Feed

/-- Each rule of an artifact calls the first functions of a candidate that have its shapes. Their
parameters are passed as their declared types say, which resolve to the type of the context and to
that of the payload, and the arguments fit unless a declared type is a static reference. -/
theorem Artifact.callsFirst_of_mem_table {settings : Settings} {sources : List Source}
    {artifact : Artifact}
    (hartifact : Artifact.ofFeed settings (Feed.ofSources settings sources) = .ok artifact) :
    ∀ rule ∈ artifact.table, ∃ c ∈ (Feed.ofSources settings sources).candidates,
      c.name = rule.target ∧
      (∀ how ∈ rule.contextOnly, how.CallsFirst settings sources c) ∧
      ∀ how ∈ rule.parameterized, how.CallsFirst settings sources c := by
  intro rule hrule
  unfold ofFeed ofCandidates at hartifact
  split at hartifact
  · rename_i selection hselection
    obtain rfl := Except.ok.inj hartifact
    obtain ⟨c, hc, -, hc'⟩ := Selection.exists_of_mem_table hselection hrule
    obtain ⟨htarget, hcontext, hpayload⟩ := Candidate.rule_eq_some hc'
    refine ⟨c, hc, htarget.symm, fun how hhow => ?_, fun how hhow => ?_⟩
    · exact Feed.callsFirst_of_contextOnly? hc (hcontext.symm.trans hhow)
    · rw [Option.mem_def.mp hhow] at hpayload
      exact Feed.callsFirst_of_parameterized hc hpayload
  · exact nomatch hartifact

/-! ## A service with both constructions -/

/-- The type of the context by its path. -/
def contextTy : Ty := .path false [.mk "crate" .none, .mk "hos" .none, .mk "ServiceCtx" .none]

/-- The name of the type of the context. -/
theorem isSegment_serviceCtx : IsSegment "ServiceCtx" := by decide

/-- The name of the service. -/
theorem isSegment_proxy : IsSegment "Proxy" := by decide

/-- A crate with a service that is constructed from a reference to the context, or from a mutable
one and a string. -/
def proxies (lifetime : Option String) : List Source := [
  ⟨⟨"crate::hos"⟩, [.type ⟨.struct, [], .everyone, "ServiceCtx", isSegment_serviceCtx, false⟩]⟩,
  ⟨⟨"crate::hos::services::fs"⟩, [
    .type ⟨.struct, [⟨false, ["service"], .none⟩], .everyone, "Proxy", isSegment_proxy, false⟩,
    .impl ⟨[], false, false, .path false [.mk "Proxy" .none], [
      ⟨[], .everyone, "new", false, false, false, false,
        [.reference lifetime false contextTy], some (.path false [.mk "Self" .none])⟩,
      ⟨[], .everyone, "open", false, false, false, false,
        [.reference none true contextTy, .path false [.mk "String" .none]],
        some (.path false [.mk "Self" .none])⟩]⟩]⟩]

/-- The rule of the service. -/
def proxyRule : DispatchRule where
  target := ⟨"crate::hos::services::fs::Proxy"⟩
  contextOnly := some ⟨"new", .shared⟩
  parameterized := some ⟨"open", .mutable, .value, "::std::string::String"⟩

/-- The service is dispatched to, whatever the lifetime of the reference. -/
theorem table_proxies : ∀ lifetime ∈ [none, some "static"],
    (Artifact.ofFeed {} (Feed.ofSources {} (proxies lifetime))).toOption.map (·.table) =
      some [proxyRule] := by
  decide +kernel

/-- The constructions of the service call its functions, one with the context alone and one with a
payload. -/
theorem callsFirst_proxyRule : ∃ artifact,
    Artifact.ofFeed {} (Feed.ofSources {} (proxies none)) = .ok artifact ∧
      proxyRule ∈ artifact.table ∧
      ∃ c ∈ (Feed.ofSources {} (proxies none)).candidates, c.name = proxyRule.target ∧
        (∀ how ∈ proxyRule.contextOnly, how.CallsFirst {} (proxies none) c) ∧
        ∀ how ∈ proxyRule.parameterized, how.CallsFirst {} (proxies none) c := by
  have htable := table_proxies none (by decide)
  cases hartifact : Artifact.ofFeed {} (Feed.ofSources {} (proxies none)) with
  | error e =>
    rw [hartifact] at htable
    exact nomatch htable
  | ok artifact =>
    rw [hartifact] at htable
    have hmem : proxyRule ∈ artifact.table := by
      rw [show artifact.table = [proxyRule] from Option.some.inj htable]
      exact List.mem_singleton_self proxyRule
    exact ⟨artifact, rfl, hmem, Artifact.callsFirst_of_mem_table hartifact _ hmem⟩

/-- If the function takes a static reference, the same call is written for it, with an argument that
does not fit. -/
theorem not_fits_staticProxy :
    let declared : Ty := .reference (some "static") false contextTy
    (Artifact.ofFeed {} (Feed.ofSources {} (proxies (some "static")))).toOption.map (·.table) =
        some [proxyRule] ∧
      (ContextConstruction.mk "new" .shared).call proxyRule.target =
        "crate::hos::services::fs::Proxy::new(&*context)" ∧
      (Argument.ofContext .shared).text = "&*context" ∧
      ¬ (Argument.ofContext .shared).Fits (Settings.locals {})
        (declared.valueType "crate::hos::ServiceCtx") := by
  refine ⟨table_proxies _ (by decide), rfl, rfl, fun hfits => ?_⟩
  have hstatic := (Argument.fits_ofContext_iff .root (Settings.locals {})
    (.reference (some "static") false contextTy)).mp hfits
  exact absurd hstatic (by decide)

end ServiceDispatch
