import ServiceDispatch.Grammar.Source

/-!
# Conditional compilation

The predicate of a `cfg` attribute decides whether an item is compiled. An item is only for
tests if its predicate cannot hold unless the option `test` is set.
-/

namespace ServiceDispatch

/-- The predicate of a `cfg` attribute. -/
inductive CfgPredicate where
  /-- An option, such as `test`. -/
  | option (name : String)
  /-- A value of an option, such as `feature = "x"`. -/
  | keyValue (key value : String)
  | all (predicates : List CfgPredicate)
  | any (predicates : List CfgPredicate)
  | not (predicates : List CfgPredicate)
  /-- Any other form, of which nothing is known. -/
  | unknown
deriving Inhabited

namespace CfgPredicate

/-- The predicate that the body of an attribute denotes; `depth` bounds how deeply predicates
are nested. -/
def ofAttribute : Nat → Attribute → CfgPredicate
  | 0, _ => .unknown
  | depth + 1, attr =>
    let name := (if attr.rooted then "::" else "") ++ "::".intercalate attr.path
    match attr.args with
    | .none => .option name
    | .value tokens => .keyValue name (Token.printAll tokens)
    | .list tokens =>
      match Attribute.listOfTokens? tokens with
      | none => .unknown
      | some nested =>
        let predicates := nested.map (ofAttribute depth)
        match name with
        | "all" => .all predicates
        | "any" => .any predicates
        | "not" => .not predicates
        | _ => .unknown

/-- The predicate that a token sequence denotes. -/
def ofTokens? (tokens : List Token) : Option CfgPredicate :=
  (Attribute.ofTokens? tokens).map (ofAttribute (Token.sizeAll tokens + 1))

mutual

/-- Whether a predicate is known to hold only under the option `test`. -/
def requiresTest : CfgPredicate → Bool
  | .option name => name == "test"
  | .all predicates => someRequiresTest predicates
  | .any predicates => !predicates.isEmpty && allRequireTest predicates
  | _ => false

/-- Whether one of several predicates holds only under `test`. -/
def someRequiresTest : List CfgPredicate → Bool
  | [] => false
  | p :: ps => p.requiresTest || someRequiresTest ps

/-- Whether each of several predicates holds only under `test`. -/
def allRequireTest : List CfgPredicate → Bool
  | [] => true
  | p :: ps => p.requiresTest && allRequireTest ps

end

end CfgPredicate

namespace Attribute

/-- The predicate of a `cfg` attribute. -/
def cfg? (attr : Attribute) : Option CfgPredicate :=
  match attr with
  | ⟨false, ["cfg"], .list tokens⟩ => CfgPredicate.ofTokens? tokens
  | _ => none

end Attribute

/-- Whether an item with these attributes is compiled for tests only. -/
def isTestOnly (attributes : List Attribute) : Bool :=
  attributes.any fun attr => attr.cfg?.any CfgPredicate.requiresTest

end ServiceDispatch
