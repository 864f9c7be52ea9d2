import ServiceDispatch.ItemPath

/-!
# Dispatch rules

A rule says how an instance of one service type is constructed: from the context alone, or
from the context and a payload, or either way. A dispatch table is a list of rules; of several
rules for one type the first decides.
-/

namespace ServiceDispatch

/-- How a constructor receives an argument. -/
inductive Passing where
  | value
  | shared
  | mutable
deriving DecidableEq, Repr, Inhabited

/-- Construction from the context alone. -/
structure ContextConstruction where
  constructor : String
  context : Passing
deriving DecidableEq, Repr, Inhabited

/-- Construction from the context and a payload of one type. -/
structure PayloadConstruction where
  constructor : String
  context : Passing
  payload : Passing
  payloadType : String
deriving DecidableEq, Repr, Inhabited

/-- The constructions of one service type. -/
structure DispatchRule where
  target : ItemPath
  contextOnly : Option ContextConstruction
  parameterized : Option PayloadConstruction
deriving DecidableEq, Repr, Inhabited

/-- Rules in order of declaration; a type may have several. -/
abbrev DispatchTable := List DispatchRule

end ServiceDispatch
