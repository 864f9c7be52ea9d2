import ServiceDispatch.Eligibility

/-!
# Choosing constructions

The rule of a service uses the first constructor that takes the context alone and the first one
that takes the context and a payload. The payload type has to be known and sized.
-/

namespace ServiceDispatch

/-- A payload type that cannot be dispatched on. -/
structure UnresolvedPayload where
  service : ItemPath
  constructor : String
  written : String
  reason : ResolveError
deriving DecidableEq, Repr, Inhabited

namespace UnresolvedPayload

/-- The text of the error. -/
def message (e : UnresolvedPayload) : String :=
  "cannot resolve payload type `" ++ e.written ++ "` of `" ++ e.service.text ++ "::" ++
    e.constructor ++ "`: " ++ e.reason.message

end UnresolvedPayload

/-- Whether a rendered type has no size of its own: a slice, an object type or `str`. -/
def isUnsized (rendered : String) : Bool :=
  match Ty.ofText? rendered with
  | some (.slice _) => true
  | some (.object _) => true
  | some (.path false [.mk "str" .none]) => true
  | _ => false

namespace Candidate

/-- The first constructor with a number of parameters that takes the context. -/
def shaped? (c : Candidate) (resolver : Resolver) (settings : Settings) (arity : Nat) :
    Option Constructor :=
  c.constructors.find? fun constructor =>
    constructor.arity == arity && constructor.takesContext resolver settings

/-- The construction from the context and a payload by a constructor. -/
def payloadConstruction (c : Candidate) (resolver : Resolver) (constructor : Constructor)
    (context payload : Parameter) : Except UnresolvedPayload PayloadConstruction :=
  let failed := fun reason => ⟨c.name, constructor.name, payload.written, reason⟩
  match resolver payload with
  | .error reason => .error (failed reason)
  | .ok type =>
    if isUnsized type then .error (failed (.unsized type))
    else .ok ⟨constructor.name, context.passing, payload.passing, type⟩

/-- The construction from the context and a payload, if a constructor has that shape. -/
def parameterized (c : Candidate) (resolver : Resolver) (settings : Settings) :
    Except UnresolvedPayload (Option PayloadConstruction) :=
  match c.shaped? resolver settings 2 with
  | some ⟨name, [context, payload]⟩ =>
    (c.payloadConstruction resolver ⟨name, [context, payload]⟩ context payload).map some
  | _ => .ok none

/-- The construction from the context alone, if a constructor has that shape. -/
def contextOnly? (c : Candidate) (resolver : Resolver) (settings : Settings) :
    Option ContextConstruction :=
  match c.shaped? resolver settings 1 with
  | some ⟨name, [context]⟩ => some ⟨name, context.passing⟩
  | _ => none

/-- The rule of a candidate, or none if no constructor has a shape that can be dispatched to. -/
def rule (c : Candidate) (resolver : Resolver) (settings : Settings) :
    Except UnresolvedPayload (Option DispatchRule) := do
  let parameterized ← c.parameterized resolver settings
  let contextOnly := c.contextOnly? resolver settings
  if contextOnly.isNone && parameterized.isNone then return none
  return some ⟨c.name, contextOnly, parameterized⟩

end Candidate

/-- A candidate that is left out, and why. -/
structure Excluded where
  name : ItemPath
  reason : Exclusion
deriving DecidableEq, Repr, Inhabited

/-- The rules of the services among some candidates, and what is left out. -/
structure Selection where
  table : DispatchTable
  excluded : List Excluded
deriving DecidableEq, Repr, Inhabited

namespace Selection

/-- No candidate at all. -/
def empty : Selection := ⟨[], []⟩

/-- One more candidate in front. -/
def add (c : Candidate) (outcome : Except Exclusion DispatchRule) (s : Selection) : Selection :=
  match outcome with
  | .ok rule => { s with table := rule :: s.table }
  | .error reason => { s with excluded := ⟨c.name, reason⟩ :: s.excluded }

/-- What becomes of a candidate. -/
def outcome (c : Candidate) (resolver : Resolver) (settings : Settings) :
    Except UnresolvedPayload (Except Exclusion DispatchRule) :=
  match c.exclusion? resolver settings with
  | some reason => .ok (.error reason)
  | none => do
    match ← c.rule resolver settings with
    | some rule => return .ok rule
    | none => return .error .noDispatchableShape

/-- The selection among candidates, in their order. The first payload type that cannot be
dispatched on is an error for all of them. -/
def ofCandidates (resolver : Resolver) (settings : Settings) :
    List Candidate → Except UnresolvedPayload Selection
  | [] => return empty
  | c :: cs => do
    let first ← outcome c resolver settings
    return (← ofCandidates resolver settings cs).add c first

end Selection

end ServiceDispatch
