import ServiceDispatch.Marker
import ServiceDispatch.Parameter

/-!
# Candidates

A candidate is a declared struct or enum, with what decides whether it is a service: its
markers, who can name it, and its constructors.
-/

namespace ServiceDispatch

/-- An associated function that returns its own type. -/
structure Constructor where
  name : String
  params : List Parameter
deriving DecidableEq, Repr, Inhabited

namespace Constructor

/-- The number of parameters. -/
def arity (c : Constructor) : Nat := c.params.length

end Constructor

/-- A declared type that may be a service. -/
structure Candidate where
  name : ItemPath
  /-- Whether the type has generic parameters. -/
  isAbstract : Bool := false
  /-- Whether the generated function cannot name the type. -/
  isPrivate : Bool := false
  markers : List Marker := []
  constructors : List Constructor := []
deriving DecidableEq, Repr, Inhabited

end ServiceDispatch
