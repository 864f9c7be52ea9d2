import ServiceDispatch.Grammar.Source

/-!
# The service attribute

The attribute `service` leaves a struct or an enum as it is and refuses everything else. It may
have a name and one further argument.
-/

namespace ServiceDispatch

/-- Why the service attribute is refused. -/
inductive ServiceAttributeError where
  /-- The first argument is not a string. -/
  | nameExpected
  | tooManyArguments
  | notAType
  /-- The second argument or the item is not well formed. -/
  | malformed
deriving DecidableEq, Repr, Inhabited

namespace ServiceAttributeError

/-- The text of a refusal. A form that is not well formed has none of its own. -/
def message? : ServiceAttributeError → Option String
  | .nameExpected => some "expected a service name string, e.g. #[service(\"acc:u0\")]"
  | .tooManyArguments => some "#[service] takes at most two arguments"
  | .notAType => some "#[service] can only be applied to a struct or enum"
  | .malformed => none

end ServiceAttributeError

namespace ServiceAttribute

open Grammar

/-- What follows the name: a comma, an argument and another comma, each of which may be missing at
the end. -/
def readAfterName (rules : Rules) : Reader (Except ServiceAttributeError Unit) := do
  if ← operator? "," then
    if !(← atEnd) then
      discard (argument rules)
      discard (operator? ",")
  return if ← atEnd then .ok () else .error .tooManyArguments

/-- The arguments, if there are any: a name and what follows it. -/
def readArguments (rules : Rules) : Reader (Except ServiceAttributeError Unit) := do
  if ← atEnd then return .ok ()
  if ← peek atString then
    discard literal
    readAfterName rules
  else return .error .nameExpected

/-- Check the arguments of the attribute. -/
def checkArguments (tokens : List Token) : Except ServiceAttributeError Unit :=
  match readFront? readArguments tokens with
  | some (result, _) => result
  | none => .error .malformed

/-- Apply the attribute with the given arguments to an item. The arguments are checked before
the item. -/
def apply (arguments item : List Token) : Except ServiceAttributeError (List Token) := do
  checkArguments arguments
  match Item.ofTokens? item with
  | some (.type _, tokens) => .ok tokens
  | some _ => .error .notAType
  | none => .error .malformed

end ServiceAttribute

end ServiceDispatch
