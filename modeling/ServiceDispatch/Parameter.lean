import ServiceDispatch.DispatchRule
import ServiceDispatch.Grammar.Source

/-!
# Parameters

A parameter of a constructor is passed by value or by reference. The type that it is, or
refers to, is kept as text together with the module in which that text has its meaning.
-/

namespace ServiceDispatch

/-- A parameter of a constructor. -/
structure Parameter where
  /-- The type as it was declared. -/
  written : String
  /-- The declared type without an outer reference. -/
  target : String
  passing : Passing
  /-- The module in which the type is written. -/
  scope : ItemPath
deriving DecidableEq, Repr, Inhabited

namespace Parameter

/-- The parameter with a type that is written in a module. -/
def ofTy (type : Ty) (scope : ItemPath) : Parameter :=
  match type with
  | .reference _ mutable target =>
    ⟨type.text, target.text, if mutable then .mutable else .shared, scope⟩
  | _ => ⟨type.text, type.text, .value, scope⟩

/-- The parameter whose type a text denotes. -/
def ofText? (text : String) (scope : ItemPath) : Option Parameter :=
  (Ty.ofText? text).map (ofTy · scope)

end Parameter

end ServiceDispatch
