/-!
# Tokens

Source text is a sequence of token trees: names, punctuation characters, literals and
delimited groups. A punctuation character is joint when another one follows it at once.
Tokens print with one space between neighbours, except after a joint character.
-/

namespace ServiceDispatch

/-- The brackets around a group. -/
inductive Delimiter where
  | paren
  | bracket
  | brace
deriving DecidableEq, Repr, Inhabited

/-- A token tree. -/
inductive Token where
  | ident (name : String)
  | punct (char : Char) (joint : Bool)
  | literal (text : String)
  | group (delimiter : Delimiter) (body : List Token)
deriving Repr, Inhabited

namespace Delimiter

/-- The printed form of a group around a printed body. -/
def wrap (d : Delimiter) (body : String) : String :=
  match d with
  | .paren => "(" ++ body ++ ")"
  | .bracket => "[" ++ body ++ "]"
  | .brace => if body = "" then "\x7b \x7d" else "\x7b " ++ body ++ " \x7d"

end Delimiter

namespace Token

/-- Whether the next token follows without a space. -/
def isJoint : Token → Bool
  | .punct _ joint => joint
  | _ => false

mutual

/-- The printed form of one token. -/
def print : Token → String
  | .ident name => name
  | .punct c _ => String.ofList [c]
  | .literal text => text
  | .group d body => d.wrap (printAll body)

/-- The printed form of a sequence of tokens. -/
def printAll : List Token → String
  | [] => ""
  | t :: ts =>
    if ts.isEmpty then t.print
    else t.print ++ (if t.isJoint then "" else " ") ++ printAll ts

end

mutual

/-- The number of token trees inside a token, itself included. -/
def size : Token → Nat
  | .group _ body => sizeAll body + 1
  | _ => 1

/-- The number of token trees in a sequence. -/
def sizeAll : List Token → Nat
  | [] => 0
  | t :: ts => t.size + sizeAll ts

end

/-- The tokens of an operator written without inner space. -/
def operator (text : String) : List Token :=
  let cs := text.toList
  (cs.dropLast.map (.punct · true)) ++ (cs.getLast?.toList.map (.punct · false))

/-- The tokens of a lifetime with the given name. -/
def lifetime (name : String) : List Token := [.punct '\'' true, .ident name]

end Token

end ServiceDispatch
