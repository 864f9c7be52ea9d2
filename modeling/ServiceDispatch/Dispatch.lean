import ServiceDispatch.DispatchRule

/-!
# Dispatch

The meaning of a dispatch table. A request names a type and may carry a payload of some type.
The first rule for the requested type decides alone: no later rule is consulted, and a payload
of the wrong type is not replaced by a construction without payload.
-/

namespace ServiceDispatch

/-- The constructor call that a request leads to. -/
inductive Construction where
  | fromContext (target : ItemPath) (how : ContextConstruction)
  | fromPayload (target : ItemPath) (how : PayloadConstruction)
deriving DecidableEq, Repr

namespace DispatchRule

/-- The call of one rule: a parameterized rule takes a payload of its type and refuses any
other; without a payload, or without a parameterized construction, the context decides. -/
def construction? (rule : DispatchRule) (payloadType : Option String) : Option Construction :=
  match rule.parameterized, payloadType with
  | some how, some type =>
    if type = how.payloadType then some (.fromPayload rule.target how) else none
  | _, _ => rule.contextOnly.map (.fromContext rule.target)

end DispatchRule

namespace DispatchTable

/-- The first rule for a type. -/
def ruleFor? (table : DispatchTable) (type : ItemPath) : Option DispatchRule :=
  table.find? fun rule => rule.target = type

/-- The call that a request for `type` leads to, given the type of its payload. -/
def dispatch (table : DispatchTable) (type : ItemPath) (payloadType : Option String) :
    Option Construction :=
  (ruleFor? table type).bind (·.construction? payloadType)

end DispatchTable

end ServiceDispatch
