import ServiceDispatch.ItemPath

/-!
# Why a type cannot be resolved
-/

namespace ServiceDispatch

/-- Why a type as written has no meaning from everywhere in the crate. -/
inductive ResolveError where
  | unknownName (name : String)
  | unknownMember (module : ItemPath) (segment : String)
  /-- More `super` steps than there are enclosing modules. -/
  | superOutOfRoot
  /-- A lifetime other than `'static`. -/
  | lifetime (type : String)
  | unsized (type : String)
  | unsupported (form : String)
  /-- A text that is no type. -/
  | malformed (text : String)
deriving DecidableEq, Repr, Inhabited

namespace ResolveError

/-- The text of an error. -/
def message : ResolveError → String
  | .unknownName name => "`" ++ name ++ "` is not declared, imported or in the prelude"
  | .unknownMember module segment =>
    "`" ++ segment ++ "` is not a member of `" ++ module.text ++ "`"
  | .superOutOfRoot => "`super` escapes the crate root"
  | .lifetime type => "lifetime arguments are not supported in `" ++ type ++ "`"
  | .unsized type => "`" ++ type ++ "` is unsized and cannot be carried in a boxed parameter"
  | .unsupported form => "unsupported type form `" ++ form ++ "`"
  | .malformed text => "`" ++ text ++ "` is not valid type syntax"

end ResolveError

end ServiceDispatch
