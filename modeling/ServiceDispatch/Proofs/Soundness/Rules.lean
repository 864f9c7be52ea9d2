import ServiceDispatch.Artifact
import ServiceDispatch.Proofs.Selection.Partition
import ServiceDispatch.Proofs.Soundness.Occurrences

/-!
# Rules can be trusted

Every rule of an artifact names a struct or an enum of the sources that the generated function can
name, and constructors that it can call. What a rule rests on is dropped at different places: by the
scan, by the symbol table, by the attachment of constructors, by the checks and by the choice of
constructions.
-/

namespace ServiceDispatch

/-! ## What is claimed -/

/-- Whether a constructor of a type is a function of the sources that the generated function can
call: an associated function in a block without trait and parameters, whose type is the target. -/
def Constructs (settings : Settings) (sources : List Source) (target : ItemPath)
    (constructor : Constructor) : Prop :=
  ∃ source ∈ sources, ∃ place decl method,
    Occurs source.module source.items place (.impl decl) ∧
    decl.hasTrait = false ∧ decl.isGeneric = false ∧ isTestOnly decl.attributes = false ∧
    (Feed.ofSources settings sources).symbols.resolveItem? place decl.selfType = some target ∧
    method ∈ decl.methods ∧ method.hasReceiver = false ∧ method.isGeneric = false ∧
    method.isAsync = false ∧ method.isUnsafe = false ∧ isTestOnly method.attributes = false ∧
    settings.dispatcher.isUnder (method.visibility.scope place) ∧
    constructor = method.constructor place

/-- Whether a type is a struct or an enum of the sources that can be a service: it is not for tests
only, has no parameters, is marked, lies in the namespace, and the generated function is in its
scope. -/
def DeclaresService (settings : Settings) (sources : List Source) (target : ItemPath) : Prop :=
  ∃ source ∈ sources, ∃ place decl,
    Occurs source.module source.items place (.type decl) ∧ target = place.join decl.name ∧
    isTestOnly decl.attributes = false ∧ decl.isGeneric = false ∧
    (∃ attr ∈ decl.attributes, (Marker.ofAttribute? settings.markerPrefix attr).isSome) ∧
    target.isUnder settings.rootNamespace ∧
    settings.dispatcher.isUnder (decl.visibility.scope place)

/-- What holds of every rule: its target is a service of the sources, the generated function is in
the scope of every module on the way to it, and each construction calls a constructor of the target
with the context, and a payload of the stated type. -/
structure DispatchRule.IsSound (settings : Settings) (sources : List Source) (rule : DispatchRule) :
    Prop where
  target : DeclaresService settings sources rule.target
  modules : ∀ source ∈ sources, ∀ place decl content,
    Occurs source.module source.items place (.module decl content) →
    isTestOnly decl.attributes = false → rule.target.isUnder (place.join decl.name) →
    place.join decl.name ≠ rule.target → settings.dispatcher.isUnder (decl.visibility.scope place)
  contextOnly : ∀ how ∈ rule.contextOnly, ∃ context,
    Constructs settings sources rule.target ⟨how.constructor, [context]⟩ ∧
    how.context = context.passing ∧
    Resolver.ofTable (Feed.ofSources settings sources).symbols context =
      .ok settings.contextType.text
  parameterized : ∀ how ∈ rule.parameterized, ∃ context payload,
    Constructs settings sources rule.target ⟨how.constructor, [context, payload]⟩ ∧
    how.context = context.passing ∧ how.payload = payload.passing ∧
    Resolver.ofTable (Feed.ofSources settings sources).symbols context =
      .ok settings.contextType.text ∧
    Resolver.ofTable (Feed.ofSources settings sources).symbols payload = .ok how.payloadType ∧
    isUnsized how.payloadType = false

/-! ## Constructions of a rule -/

namespace Candidate

variable {resolver : Resolver} {settings : Settings} {c : Candidate}

/-- An eligible candidate passes every check: it is neither abstract nor private, it has a marker,
and it is in the root namespace of the settings. -/
theorem eligible_of_exclusion?_eq_none (hpass : c.exclusion? resolver settings = none) :
    c.isAbstract = false ∧ c.isPrivate = false ∧ c.markers ≠ [] ∧
      c.name.isUnder settings.rootNamespace := by
  unfold exclusion? at hpass
  split at hpass
  · exact nomatch hpass
  rename_i habstract
  split at hpass
  · exact nomatch hpass
  rename_i hprivate
  split at hpass
  · exact nomatch hpass
  rename_i hmarkers
  split at hpass
  · exact nomatch hpass
  rename_i hunder
  refine ⟨Bool.eq_false_iff.mpr habstract, Bool.eq_false_iff.mpr hprivate, ?_, ?_⟩
  · rintro hnil
    rw [hnil] at hmarkers
    exact hmarkers rfl
  · simpa using hunder

/-- A constructor that takes the context takes a parameter of its type first. -/
theorem resolver_of_takesContext {name : String} {first : Parameter} {rest : List Parameter}
    (htakes : (Constructor.mk name (first :: rest)).takesContext resolver settings) :
    resolver first = .ok settings.contextType.text := by
  rw [Constructor.takesContext] at htakes
  cases htype : resolver first with
  | error e =>
    simp only [htype] at htakes
    exact nomatch htakes
  | ok type =>
    simp only [htype, beq_iff_eq] at htakes
    rw [htakes]

/-- A construction from the context is that of the first constructor that takes it alone. -/
theorem shaped?_of_contextOnly? {how : ContextConstruction}
    (hhow : c.contextOnly? resolver settings = some how) :
    ∃ context, c.shaped? resolver settings 1 = some ⟨how.constructor, [context]⟩ ∧
      how.context = context.passing := by
  unfold contextOnly? at hhow
  split at hhow
  · rename_i name context hshaped
    obtain rfl := Option.some.inj hhow
    exact ⟨context, hshaped, rfl⟩
  · exact nomatch hhow

/-- A construction from a payload is that of the first constructor that takes the context and a
payload. -/
theorem shaped?_of_parameterized {how : PayloadConstruction}
    (hhow : c.parameterized resolver settings = .ok (some how)) :
    ∃ context payload, c.shaped? resolver settings 2 = some ⟨how.constructor, [context, payload]⟩ ∧
      how.context = context.passing ∧ how.payload = payload.passing ∧
      resolver payload = .ok how.payloadType ∧ isUnsized how.payloadType = false := by
  unfold parameterized at hhow
  split at hhow
  · rename_i name context payload hshaped
    unfold payloadConstruction at hhow
    cases htype : resolver payload with
    | error e =>
      rw [htype] at hhow
      exact nomatch hhow
    | ok type =>
      rw [htype] at hhow
      by_cases hsize : isUnsized type
      · simp only [hsize, if_true] at hhow
        exact nomatch hhow
      · simp only [hsize] at hhow
        obtain rfl := Option.some.inj (Except.ok.inj hhow)
        exact ⟨context, payload, hshaped, rfl, rfl, htype, Bool.eq_false_iff.mpr hsize⟩
  · exact nomatch hhow

/-- A construction from the context calls a constructor that takes the context alone. -/
theorem constructor_of_contextOnly? {how : ContextConstruction}
    (hhow : c.contextOnly? resolver settings = some how) :
    ∃ context, ⟨how.constructor, [context]⟩ ∈ c.constructors ∧ how.context = context.passing ∧
      resolver context = .ok settings.contextType.text := by
  obtain ⟨context, hshaped, hpassing⟩ := shaped?_of_contextOnly? hhow
  obtain ⟨hmem, -, htakes⟩ := shaped?_eq_some hshaped
  exact ⟨context, hmem, hpassing, resolver_of_takesContext htakes⟩

/-- A construction from a payload calls a constructor that takes the context and the payload. -/
theorem constructor_of_parameterized {how : PayloadConstruction}
    (hhow : c.parameterized resolver settings = .ok (some how)) :
    ∃ context payload, ⟨how.constructor, [context, payload]⟩ ∈ c.constructors ∧
      how.context = context.passing ∧ how.payload = payload.passing ∧
      resolver context = .ok settings.contextType.text ∧
      resolver payload = .ok how.payloadType ∧ isUnsized how.payloadType = false := by
  obtain ⟨context, payload, hshaped, hcontext, hpayload, htype, hsized⟩ :=
    shaped?_of_parameterized hhow
  obtain ⟨hmem, -, htakes⟩ := shaped?_eq_some hshaped
  exact ⟨context, payload, hmem, hcontext, hpayload, resolver_of_takesContext htakes, htype, hsized⟩

end Candidate

/-! ## Blocks -/

/-- The block of an `impl` with the functions that are constructors for a name. -/
def ImplDecl.blockOf (decl : ImplDecl) (place dispatcher : ItemPath) (terminal : String) :
    ImplBlock :=
  ⟨place, decl.selfType, (decl.methods.filter (·.isConstructor terminal place dispatcher)).map
    (·.constructor place)⟩

/-- An `impl` without trait and parameters has a block with the constructors for the last name of
its type. -/
theorem ImplDecl.block?_eq_some_iff {decl : ImplDecl} {place dispatcher : ItemPath}
    {block : ImplBlock} : decl.block? place dispatcher = some block ↔
      (decl.hasTrait = false ∧ decl.isGeneric = false ∧ isTestOnly decl.attributes = false) ∧
      ∃ terminal, decl.selfType.terminal? = some terminal ∧
        decl.blockOf place dispatcher terminal = block := by
  rw [block?]
  split
  · rename_i hrefused
    refine ⟨nofun, ?_⟩
    rintro ⟨⟨htrait, hgeneric, htest⟩, -⟩
    rw [htrait, hgeneric, htest] at hrefused
    exact nomatch hrefused
  · rename_i hplain
    simp only [Bool.or_eq_true, not_or, Bool.not_eq_true] at hplain
    rw [Option.map_eq_some_iff]
    exact ⟨fun hblock => ⟨⟨hplain.1.1, hplain.1.2, hplain.2⟩, hblock⟩, And.right⟩

/-- A function is a constructor for a name if it can be called and its result is named so. -/
theorem MethodDecl.isConstructor_iff {method : MethodDecl} {terminal : String}
    {place dispatcher : ItemPath} : method.isConstructor terminal place dispatcher ↔
      (method.hasReceiver = false ∧ method.isGeneric = false ∧ method.isAsync = false ∧
        method.isUnsafe = false ∧ isTestOnly method.attributes = false) ∧
      dispatcher.isUnder (method.visibility.scope place) ∧
      ∃ result, method.result = some result ∧ result.isNamed terminal := by
  simp only [isConstructor, Bool.and_eq_true, Bool.not_eq_true', Option.any_eq_true]
  tauto

/-! ## Candidates of sources -/

namespace Feed

variable {settings : Settings} {sources : List Source}

/-- A candidate is a declared type of the sources that is not for tests, read together with the
table of all declarations and the `impl` blocks of the sources. -/
theorem exists_type_of_mem_candidates {c : Candidate}
    (hc : c ∈ (ofSources settings sources).candidates) :
    ∃ source ∈ sources, ∃ place decl, Occurs source.module source.items place (.type decl) ∧
      isTestOnly decl.attributes = false ∧
      c = candidate (ofSources settings sources).symbols
        (implementations (ofSources settings sources).symbols
          ((allDeclarations settings sources).filterMap Declaration.impl?))
        settings.dispatcher (decl.declared (.ofSettings settings) place) := by
  obtain ⟨type, htype, rfl⟩ := List.mem_map.mp hc
  obtain ⟨declaration, hmem, hdeclaration⟩ := List.mem_filterMap.mp htype
  have heq : declaration = .type type := by
    cases declaration with
    | type other => rw [Option.some.inj hdeclaration]
    | _ => exact nomatch hdeclaration
  subst heq
  obtain ⟨source, hsource, place, item, hoccurs, hown⟩ :=
    occurs_of_mem_allDeclarations hmem fun _ _ h => nomatch h
  obtain ⟨decl, rfl, hcompiled, rfl⟩ := Item.of_type_mem_ownDeclarations hown
  exact ⟨source, hsource, place, decl, hoccurs, hcompiled, rfl⟩

/-- The blocks among declarations are those that are declared, so none is lost when the other
declarations are dropped. -/
theorem mem_filterMap_impl?_iff {declarations : List Declaration} {block : ImplBlock} :
    block ∈ declarations.filterMap Declaration.impl? ↔ .impl block ∈ declarations := by
  rw [List.mem_filterMap]
  refine ⟨?_, fun hmem => ⟨_, hmem, rfl⟩⟩
  rintro ⟨declaration, hmem, hdeclaration⟩
  cases declaration with
  | impl other =>
    obtain rfl := Option.some.inj hdeclaration
    exact hmem
  | _ => exact nomatch hdeclaration

/-- The blocks of sources are those of the `impl` items in them. -/
theorem impl_mem_allDeclarations_iff {block : ImplBlock} :
    .impl block ∈ allDeclarations settings sources ↔
      ∃ source ∈ sources, ∃ place decl, Occurs source.module source.items place (.impl decl) ∧
        decl.block? place settings.dispatcher = some block := by
  constructor
  · intro hmem
    obtain ⟨source, hsource, place, item, hoccurs, hown⟩ :=
      occurs_of_mem_allDeclarations hmem fun _ _ h => nomatch h
    obtain ⟨decl, rfl, hblock⟩ := Item.of_impl_mem_ownDeclarations hown
    exact ⟨source, hsource, place, decl, hoccurs, hblock⟩
  · rintro ⟨source, hsource, place, decl, hoccurs, hblock⟩
    refine List.mem_flatMap.mpr ⟨source, hsource, List.mem_append_right _ ?_⟩
    refine Item.mem_declarationsOfAll_iff_occurs.mpr ⟨place, _, hoccurs, ?_⟩
    refine List.mem_map.mpr ⟨block, ?_, rfl⟩
    rw [show decl.block? place (ScanContext.ofSettings settings).dispatcher = some block
      from hblock]
    exact List.mem_singleton_self block

/-- A constructor that is attached to a type can be called. -/
theorem constructs_of_mem_implementations {implementation : Implementation}
    (himplementation : implementation ∈ implementations (ofSources settings sources).symbols
      ((allDeclarations settings sources).filterMap Declaration.impl?))
    {constructor : Constructor} (hconstructor : constructor ∈ implementation.constructors) :
    Constructs settings sources implementation.target constructor := by
  obtain ⟨block, hblock, himpl⟩ := List.mem_filterMap.mp himplementation
  obtain ⟨target, htarget, rfl⟩ := Option.map_eq_some_iff.mp himpl
  obtain ⟨source, hsource, place, decl, hoccurs, hdecl⟩ :=
    impl_mem_allDeclarations_iff.mp (mem_filterMap_impl?_iff.mp hblock)
  obtain ⟨⟨htrait, hplain, hcompiled⟩, terminal, -, rfl⟩ := ImplDecl.block?_eq_some_iff.mp hdecl
  obtain ⟨method, hmethod, rfl⟩ := List.mem_map.mp hconstructor
  obtain ⟨hmethod, hcalled⟩ := List.mem_filter.mp hmethod
  obtain ⟨⟨hreceiver, hgeneric, hasync, hunsafe, htest⟩, hvisible, -⟩ :=
    MethodDecl.isConstructor_iff.mp hcalled
  exact ⟨source, hsource, place, decl, method, hoccurs, htrait, hplain, hcompiled, htarget, hmethod,
    hreceiver, hgeneric, hasync, hunsafe, htest, hvisible, rfl⟩

/-- The constructors of a candidate can be called: each is a function of an `impl` block of the
sources that resolves to the candidate, visible where the dispatcher calls it. -/
theorem constructs_of_mem_candidates {c : Candidate}
    (hc : c ∈ (ofSources settings sources).candidates) :
    ∀ constructor ∈ c.constructors, Constructs settings sources c.name constructor := by
  obtain ⟨source, -, place, decl, -, -, rfl⟩ := exists_type_of_mem_candidates hc
  intro constructor hconstructor
  obtain ⟨implementation, hmem, hconstructor⟩ := List.mem_flatMap.mp hconstructor
  obtain ⟨himplementation, htarget⟩ := List.mem_filter.mp hmem
  have hname := constructs_of_mem_implementations himplementation hconstructor
  rwa [beq_iff_eq.mp htarget] at hname

/-- The generated function is in the scope of a type that it can name, and in that of every module
on the way to the type. -/
theorem isUnder_scopes_of_candidate {symbols : SymbolTable} {found : List Implementation}
    {dispatcher : ItemPath} {type : DeclaredType}
    (hprivate : (candidate symbols found dispatcher type).isPrivate = false) :
    dispatcher.isUnder type.visibleIn ∧ ∀ path ∈ type.path.ancestors, ∀ scope,
      symbols.scope? path = some scope → dispatcher.isUnder scope := by
  have hreachable : symbols.isReachable type.path type.visibleIn dispatcher = true := by
    simpa [candidate] using hprivate
  rw [SymbolTable.isReachable, Bool.and_eq_true, List.all_eq_true] at hreachable
  refine ⟨hreachable.1, ?_⟩
  intro path hpath scope hscope
  have hunder := hreachable.2 path hpath
  rwa [hscope, Option.all_some] at hunder

/-- An eligible candidate is a service of the sources. The checks supply what the declaration alone
does not say: the marker, the namespace and that the dispatcher can name the type. -/
theorem declaresService_of_mem_candidates {c : Candidate}
    (hc : c ∈ (ofSources settings sources).candidates) {resolver : Resolver}
    (hpass : c.exclusion? resolver settings = none) : DeclaresService settings sources c.name := by
  obtain ⟨source, hsource, place, decl, hoccurs, hcompiled, rfl⟩ := exists_type_of_mem_candidates hc
  obtain ⟨hgeneric, hprivate, hmarkers, hunder⟩ := Candidate.eligible_of_exclusion?_eq_none hpass
  obtain ⟨marker, hmarker⟩ := List.exists_mem_of_ne_nil _ hmarkers
  obtain ⟨attr, hattr, hsome⟩ := List.mem_filterMap.mp hmarker
  exact ⟨source, hsource, place, decl, hoccurs, rfl, hcompiled, hgeneric,
    ⟨attr, hattr, Option.isSome_of_eq_some hsome⟩, hunder,
    (isUnder_scopes_of_candidate hprivate).1⟩

/-- The generated function is in the scope of every module on the way to an eligible candidate. -/
theorem isUnder_scope_of_mem_candidates (hsources : ∀ source ∈ sources, source.IsRegular)
    {c : Candidate} (hc : c ∈ (ofSources settings sources).candidates) {resolver : Resolver}
    (hpass : c.exclusion? resolver settings = none) {source : Source} (hsource : source ∈ sources)
    {place : ItemPath} {decl : ModuleDecl} {content : Option (List Item)}
    (hoccurs : Occurs source.module source.items place (.module decl content))
    (hcompiled : isTestOnly decl.attributes = false)
    (hunder : c.name.isUnder (place.join decl.name)) (hne : place.join decl.name ≠ c.name) :
    settings.dispatcher.isUnder (decl.visibility.scope place) := by
  have hscoped : ∀ declaration ∈ allDeclarations settings sources, declaration.ScopedAbove :=
    scopedAbove_of_mem_allDeclarations hsources
  have hdeclared : .module (place.join decl.name) (decl.visibility.scope place) ∈
      allDeclarations settings sources :=
    module_mem_allDeclarations_iff.mpr
      (.inr ⟨source, hsource, place, decl, content, hoccurs, hcompiled, rfl, rfl⟩)
  obtain ⟨scope, hscope, hnarrow⟩ :=
    SymbolTable.confines_ofDeclarations settings.externCrates hscoped hdeclared
  obtain ⟨origin, horigin, site, type, hsite, -, rfl⟩ := exists_type_of_mem_candidates hc
  obtain ⟨-, hprivate, -, -⟩ := Candidate.eligible_of_exclusion?_eq_none hpass
  have hplace := hoccurs.inCrate (hsources source hsource).1
  have hname := (hsite.inCrate (hsources origin horigin).1).join type.isSegment
  have hancestor := (hname.mem_ancestors_iff (hplace.join decl.isSegment)).mpr ⟨hunder, hne⟩
  have hin := (isUnder_scopes_of_candidate hprivate).2 _ hancestor scope hscope
  exact ItemPath.isUnder_trans hin hnarrow

end Feed

/-! ## Rules of an artifact -/

/-- Every rule of an artifact is the one of a candidate of its feed. -/
theorem Artifact.exists_rule_of_mem_table {settings : Settings} {feed : Feed} {artifact : Artifact}
    (hartifact : Artifact.ofFeed settings feed = .ok artifact) {rule : DispatchRule}
    (hrule : rule ∈ artifact.table) :
    ∃ c ∈ feed.candidates, rule.target = c.name ∧
      rule.contextOnly = c.contextOnly? (.ofTable feed.symbols) settings ∧
        c.parameterized (.ofTable feed.symbols) settings = .ok rule.parameterized := by
  unfold ofFeed ofCandidates at hartifact
  split at hartifact
  · rename_i selection hselection
    obtain rfl := Except.ok.inj hartifact
    obtain ⟨c, hc, -, hc'⟩ := Selection.exists_of_mem_table hselection hrule
    exact ⟨c, hc, Candidate.rule_eq_some hc'⟩
  · exact nomatch hartifact

/-- Every rule of an artifact is sound. The hypothesis excludes sources outside of the crate, and
restricted visibilities of modules that name no module above them, which no compiler accepts. -/
theorem Artifact.isSound_of_mem_table {settings : Settings} {sources : List Source}
    (hsources : ∀ source ∈ sources, source.IsRegular) {artifact : Artifact}
    (hartifact : Artifact.ofFeed settings (Feed.ofSources settings sources) = .ok artifact) :
    ∀ rule ∈ artifact.table, rule.IsSound settings sources := by
  intro rule hrule
  unfold ofFeed ofCandidates at hartifact
  split at hartifact
  · rename_i selection hselection
    obtain rfl := Except.ok.inj hartifact
    obtain ⟨c, hc, hpass, hc'⟩ := Selection.exists_of_mem_table hselection hrule
    obtain ⟨htarget, hcontext, hpayload⟩ := Candidate.rule_eq_some hc'
    have hcallable := Feed.constructs_of_mem_candidates hc
    rw [← htarget] at hcallable
    refine ⟨?_, ?_, ?_, ?_⟩
    · rw [htarget]
      exact Feed.declaresService_of_mem_candidates hc hpass
    · intro source hsource place decl content hoccurs hcompiled hunder hne
      rw [htarget] at hunder hne
      exact Feed.isUnder_scope_of_mem_candidates hsources hc hpass hsource hoccurs hcompiled hunder
        hne
    · intro how hhow
      obtain ⟨context, hmem, hpassing, htype⟩ :=
        Candidate.constructor_of_contextOnly? (hcontext.symm.trans hhow)
      exact ⟨context, hcallable _ hmem, hpassing, htype⟩
    · intro how hhow
      rw [Option.mem_def.mp hhow] at hpayload
      obtain ⟨context, payload, hmem, hpassings⟩ := Candidate.constructor_of_parameterized hpayload
      exact ⟨context, payload, hcallable _ hmem, hpassings⟩
  · exact nomatch hartifact

/-- The name of a module of the example is a segment. -/
theorem isSegment_user : IsSegment "user" := by decide

/-- The name of a service of the example is a segment. -/
theorem isSegment_userService : IsSegment "UserService" := by decide

/-- A crate with a service in a module that is declared twice: privately for tests, and publicly
otherwise. -/
def twiceDeclared : List Source := [
  ⟨⟨"crate::hos"⟩, [.type ⟨.struct, [], .everyone, "ServiceCtx", by decide, false⟩]⟩,
  ⟨⟨"crate::hos::services::acc"⟩, [
    .module ⟨[⟨false, ["cfg"], .list [.ident "test"]⟩], .inherited, "user", isSegment_user⟩
      none,
    .module ⟨[⟨false, ["cfg"], .list [.ident "not", .group .paren [.ident "test"]]⟩], .everyone,
      "user", isSegment_user⟩ none]⟩,
  ⟨⟨"crate::hos::services::acc::user"⟩, [
    .use [] false (.path "crate" (.path "hos" (.name "ServiceCtx"))),
    .type ⟨.struct, [⟨false, ["service"], .none⟩], .everyone, "UserService", isSegment_userService,
      false⟩,
    .impl ⟨[], false, false, .path false [.mk "UserService" .none],
      [⟨[], .everyone, "new", false, false, false, false,
        [.reference none false (.path false [.mk "ServiceCtx" .none])],
        some (.path false [.mk "Self" .none])⟩]⟩]⟩]

/-- The rule of the service. -/
def userServiceRule : DispatchRule :=
  ⟨⟨"crate::hos::services::acc::user::UserService"⟩, some ⟨"new", .shared⟩, none⟩

/-- The service is dispatched to, although the module it stands in is declared a second time for
tests only. -/
theorem table_twiceDeclared :
    (Artifact.ofFeed {} (Feed.ofSources {} twiceDeclared)).toOption.map (·.table) =
      some [userServiceRule] := by
  decide +kernel

/-- No visibility of a module in the crate is restricted, so the sources are regular. -/
theorem twiceDeclared_isRegular : ∀ source ∈ twiceDeclared, source.IsRegular := by
  intro source hsource
  simp only [twiceDeclared, List.mem_cons, List.not_mem_nil, or_false] at hsource
  rcases hsource with rfl | rfl | rfl
  · refine ⟨⟨["hos"], by decide, by decide⟩, ?_⟩
    intro place decl content hoccurs
    cases hoccurs with
    | here hmem => simp at hmem
    | inModule hmem => simp at hmem
    | inItem hmem => simp at hmem
  · refine ⟨⟨["hos", "services", "acc"], by decide, by decide⟩, ?_⟩
    intro place decl content hoccurs
    cases hoccurs with
    | here hmem =>
      simp only [List.mem_cons, Item.module.injEq, List.not_mem_nil, or_false] at hmem
      rcases hmem with ⟨rfl, -⟩ | ⟨rfl, -⟩
      · exact fun _ h => nomatch h
      · exact fun _ h => nomatch h
    | inModule hmem => simp at hmem
    | inItem hmem => simp at hmem
  · refine ⟨⟨["hos", "services", "acc", "user"], by decide, by decide⟩, ?_⟩
    intro place decl content hoccurs
    cases hoccurs with
    | here hmem => simp at hmem
    | inModule hmem => simp at hmem
    | inItem hmem => simp at hmem

/-- The rule of the service is sound, although its module is declared a second time, as a private
one for tests. -/
theorem isSound_userServiceRule : userServiceRule.IsSound {} twiceDeclared := by
  have htable := table_twiceDeclared
  cases hartifact : Artifact.ofFeed {} (Feed.ofSources {} twiceDeclared) with
  | error e =>
    rw [hartifact] at htable
    exact nomatch htable
  | ok artifact =>
    rw [hartifact] at htable
    refine Artifact.isSound_of_mem_table twiceDeclared_isRegular hartifact _ ?_
    rw [show artifact.table = [userServiceRule] from Option.some.inj htable]
    exact List.mem_singleton.mpr rfl

/-- The private declaration for tests does not count: the generated function is outside its scope,
and the service in the module is dispatched to all the same. -/
theorem isUnder_scope_twiceDeclared :
    (∀ source ∈ twiceDeclared, source.IsRegular) ∧
      (Artifact.ofFeed {} (Feed.ofSources {} twiceDeclared)).toOption.map (·.table) =
        some [userServiceRule] ∧
      ∃ source ∈ twiceDeclared, ∃ place decl content,
        Occurs source.module source.items place (.module decl content) ∧
          userServiceRule.target.isUnder (place.join decl.name) ∧
          place.join decl.name ≠ userServiceRule.target ∧
          (Settings.dispatcher {}).isUnder (decl.visibility.scope place) = false := by
  refine ⟨twiceDeclared_isRegular, table_twiceDeclared, _,
    List.mem_cons_of_mem _ List.mem_cons_self, _, _, _, .here List.mem_cons_self, ?_, ?_, ?_⟩
  · decide
  · decide
  · decide

end ServiceDispatch
