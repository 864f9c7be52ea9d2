import ServiceDispatch.Candidate
import ServiceDispatch.Resolver
import ServiceDispatch.Settings

/-!
# Eligibility

Which candidates become services. The conditions are checked in a fixed order, and the first
one that fails is the reason why a candidate is left out.
-/

namespace ServiceDispatch

/-- Why a candidate is not dispatched to. -/
inductive Exclusion where
  | generic
  | notVisible
  | unmarked
  | outsideNamespace
  /-- No constructor takes a parameter. -/
  | noConstructor
  /-- The first constructor with parameters takes something else first than the context. -/
  | contextMismatch (found : String)
  /-- No constructor takes the context alone, or the context and one payload. -/
  | noDispatchableShape
deriving DecidableEq, Repr, Inhabited

namespace Exclusion

/-- The text of a reason. -/
def message : Exclusion → String
  | .generic => "generic type"
  | .notVisible => "not visible to the dispatcher"
  | .unmarked => "no service marker"
  | .outsideNamespace => "outside the service namespace"
  | .noConstructor => "no constructor with parameters"
  | .contextMismatch found => "first constructor parameter is `" ++ found ++ "`"
  | .noDispatchableShape => "no context-only or context+payload constructor"

end Exclusion

namespace Constructor

/-- Whether the first parameter is the context. -/
def takesContext (c : Constructor) (resolver : Resolver) (settings : Settings) : Bool :=
  match c.params with
  | first :: _ =>
    match resolver first with
    | .ok type => type == settings.contextType.text
    | .error _ => false
  | [] => false

end Constructor

namespace Candidate

/-- The first parameter of the first constructor that has one. -/
def firstParameter? (c : Candidate) : Option (Constructor × Parameter) :=
  c.constructors.findSome? fun constructor => constructor.params.head?.map (constructor, ·)

/-- Why a candidate is left out before its constructors are compared with the shapes that can be
dispatched to. -/
def exclusion? (c : Candidate) (resolver : Resolver) (settings : Settings) : Option Exclusion :=
  if c.isAbstract then some .generic
  else if c.isPrivate then some .notVisible
  else if c.markers.isEmpty then some .unmarked
  else if !c.name.isUnder settings.rootNamespace then some .outsideNamespace
  else
    match c.firstParameter? with
    | none => some .noConstructor
    | some (constructor, first) =>
      if constructor.takesContext resolver settings then none
      else some (.contextMismatch first.written)

end Candidate

end ServiceDispatch
