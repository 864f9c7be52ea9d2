import ServiceDispatch.Grammar.Source

/-!
# Service markers

An attribute marks a service if the last name of its path begins with a configured text. Its
arguments may give the service a name and one further argument.
-/

namespace ServiceDispatch

/-- The mark of a service. -/
inductive Marker where
  | bare
  /-- A service name, and what follows it. -/
  | named (name : String) (argument : Option String)
  /-- Arguments of any other shape, printed. -/
  | other (text : String)
deriving DecidableEq, Repr, Inhabited

namespace Marker

open Grammar

/-- The value of an expression that is a string literal. -/
def stringValue? : ExprForm → Option String
  | .literal text => Literal.stringValue? text
  | _ => none

/-- The text of an expression: the value of a string, or what is printed. -/
def argumentText (argument : ExprForm × List Token) : String :=
  (stringValue? argument.1).getD (Token.printAll argument.2)

/-- The marker with the given arguments. What follows the second one does not count. -/
def ofArguments (arguments : List (ExprForm × List Token)) : Marker :=
  match arguments with
  | [] => .bare
  | first :: rest =>
    match stringValue? first.1 with
    | some name => .named name (rest.head?.map argumentText)
    | none => .other (", ".intercalate (arguments.map fun a => Token.printAll a.2))

/-- The marker whose attribute has the given arguments. -/
def ofArgs : AttributeArgs → Marker
  | .none => .bare
  | .list tokens =>
    match argumentList? tokens with
    | some arguments => ofArguments arguments
    | none => .other (Token.printAll tokens)
  | .value tokens => .other (Token.printAll tokens)

/-- The marker that an attribute is, if it is one. -/
def ofAttribute? (start : String) (attr : Attribute) : Option Marker :=
  match attr.path.getLast? with
  | some name => if start.isPrefixOf name then some (ofArgs attr.args) else none
  | none => none

/-- The markers among attributes, in their order. -/
def ofAttributes (start : String) (attributes : List Attribute) : List Marker :=
  attributes.filterMap (ofAttribute? start)

end Marker

end ServiceDispatch
