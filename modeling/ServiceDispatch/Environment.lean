import ServiceDispatch.ItemPath
import ServiceDispatch.Text.Blank
import ServiceDispatch.Text.Split

/-!
# Environment variables

A process environment binds names to values. Values are read as texts, paths, truth values,
bounded integers, single characters or comma separated lists; a value that is not of the wanted
form counts as absent.
-/

namespace ServiceDispatch

/-- The variables of a process; the first binding of a name counts. -/
structure Environment where
  bindings : List (String × String) := []
deriving DecidableEq, Repr, Inhabited

/-- The value of a decimal number, or nothing if a character is not a digit. -/
def digitsValue? (cs : List Char) : Option Nat :=
  cs.foldlM (fun n c => if c.isDigit then some (10 * n + (c.toNat - '0'.toNat)) else none) 0

/-- An integer between two bounds: an optional sign, then at least one digit. A minus sign is
only read where the lower bound is negative. -/
def integerBetween? (lo hi : Int) (s : String) : Option Int := do
  let (negative, digits) :=
    match s.toList with
    | '+' :: rest => (false, rest)
    | '-' :: rest => if lo < 0 then (true, rest) else (false, '-' :: rest)
    | cs => (false, cs)
  guard (digits ≠ [])
  let size ← digitsValue? digits
  let value : Int := if negative then -(size : Int) else size
  guard (lo ≤ value ∧ value ≤ hi)
  return value

namespace Environment

/-- The value bound to a name. -/
def get? (env : Environment) (name : String) : Option String := env.bindings.lookup name

/-- Bind a name that has no value yet; a bound name keeps its value. -/
def bindIfAbsent (env : Environment) (name value : String) : Environment :=
  if (env.get? name).isSome then env else ⟨env.bindings ++ [(name, value)]⟩

/-- The value of a variable, or a default. -/
def getD (env : Environment) (name default : String) : String := (env.get? name).getD default

/-- A path, without the blanks around it. -/
def path? (env : Environment) (name : String) : Option ItemPath :=
  (env.get? name).map fun value => ⟨Text.trimmed value⟩

/-- A truth value, written `true` or `false`. -/
def bool? (env : Environment) (name : String) : Option Bool :=
  match env.get? name with
  | some "true" => some true
  | some "false" => some false
  | _ => none

/-- An integer between two bounds. -/
def integer? (env : Environment) (name : String) (lo hi : Int) : Option Int :=
  (env.get? name).bind (integerBetween? lo hi)

/-- A value of exactly one character. -/
def char? (env : Environment) (name : String) : Option Char :=
  match (env.get? name).map String.toList with
  | some [c] => some c
  | _ => none

/-- The entries of a comma separated value, without blanks around them and without the empty
ones. -/
def list (env : Environment) (name : String) : List String :=
  match env.get? name with
  | some value => ((Text.splitAtChar ',' value).map Text.trimmed).filter (· ≠ "")
  | none => []

end Environment

end ServiceDispatch
