import ServiceDispatch.Source.Item
import ServiceDispatch.Token.Literal

/-!
# Readers

A reader consumes tokens of one group from the front. As it goes it writes the canonical form
of what it consumed, and it records the items that it meets inside types and expressions. A
reader fails or succeeds; after a failure nothing of its work is left.
-/

namespace ServiceDispatch.Grammar

/-- Where a reader stands: the tokens left in the group, the canonical tokens written and the
items met so far, both latest first. -/
structure Cursor where
  rest : List Token
  written : List Token := []
  found : List Item := []

/-- A reader of an `α`. -/
abbrev Reader (α : Type) := StateT Cursor Option α

/-! ## Looking ahead -/

/-- The words that are never names. -/
def keywords : List String :=
  ["_", "abstract", "as", "async", "await", "become", "box", "break", "const", "continue",
    "crate", "do", "dyn", "else", "enum", "extern", "false", "final", "fn", "for", "if", "impl",
    "in", "let", "loop", "macro", "match", "mod", "move", "mut", "override", "priv", "pub", "ref",
    "return", "Self", "self", "static", "struct", "super", "trait", "true", "try", "type",
    "typeof", "unsafe", "unsized", "use", "virtual", "where", "while", "yield"]

/-- Whether the operator `op` stands at the front: its characters in order, each but the last
joint. -/
def atOperatorChars : List Char → List Token → Bool
  | [], _ => false
  | [c], .punct d _ :: _ => c == d && d != '\''
  | c :: cs, .punct d joint :: rest => c == d && joint && atOperatorChars cs rest
  | _, _ => false

/-- Whether the operator `op` stands at the front. -/
def atOperator (op : String) (ts : List Token) : Bool := atOperatorChars op.toList ts

/-- Whether the word `w` stands at the front. -/
def atWord (w : String) : List Token → Bool
  | .ident name :: _ => name == w
  | _ => false

/-- Whether a name that is not a keyword stands at the front. -/
def atName : List Token → Bool
  | .ident name :: _ => !keywords.contains name
  | _ => false

/-- Whether a name or keyword stands at the front. -/
def atAnyWord : List Token → Bool
  | .ident _ :: _ => true
  | _ => false

/-- Whether a group with the delimiter `d` stands at the front. -/
def atGroup (d : Delimiter) : List Token → Bool
  | .group e _ :: _ => d == e
  | _ => false

/-- Whether a lifetime stands at the front. -/
def atLifetime : List Token → Bool
  | .punct '\'' true :: .ident _ :: _ => true
  | _ => false

/-- Whether a literal stands at the front: a truth value, or a number with a minus sign, too. -/
def atLiteral : List Token → Bool
  | .literal _ :: _ => true
  | .ident name :: _ => name == "true" || name == "false"
  | .punct '-' _ :: .literal text :: _ => Literal.isNumber text
  | _ => false

/-- Whether a string literal stands at the front. -/
def atString : List Token → Bool
  | .literal text :: _ => Literal.isString text
  | _ => false

/-- The tokens after the first one; a lifetime counts as one. -/
def skipToken : List Token → List Token
  | .punct '\'' true :: .ident _ :: rest => rest
  | _ :: rest => rest
  | [] => []

/-! ## Elementary readers -/

/-- The tokens ahead. -/
def ahead : Reader (List Token) := return (← get).rest

/-- Whether a condition holds of the tokens ahead. -/
def peek (p : List Token → Bool) : Reader Bool := return p (← get).rest

/-- Write canonical tokens. -/
def write (ts : List Token) : Reader Unit :=
  modify fun c => { c with written := ts.reverse ++ c.written }

/-- Record an item met inside a type or expression. -/
def record (item : Item) : Reader Unit :=
  modify fun c => { c with found := item :: c.found }

/-- Fail unless a condition holds. -/
def require (p : Bool) : Reader Unit := if p then return () else failure

/-- Move on to the given tokens. -/
def moveTo (ts : List Token) : Reader Unit := modify fun c => { c with rest := ts }

/-- Read an operator. -/
def operator (op : String) : Reader Unit := do
  let ts ← ahead
  require (atOperator op ts)
  moveTo (ts.drop op.length)
  write (Token.operator op)

/-- Read a word. -/
def word (w : String) : Reader Unit := do
  let ts ← ahead
  require (atWord w ts)
  moveTo (ts.drop 1)
  write [.ident w]

/-- Read an operator if it stands ahead. -/
def operator? (op : String) : Reader Bool := do
  if ← peek (atOperator op) then operator op; return true else return false

/-- Read a word if it stands ahead. -/
def word? (w : String) : Reader Bool := do
  if ← peek (atWord w) then word w; return true else return false

/-- Read a name or keyword. -/
def anyWord : Reader String := do
  match ← ahead with
  | .ident name :: rest => moveTo rest; write [.ident name]; return name
  | _ => failure

/-- Read a name that is not a keyword. -/
def name : Reader String := do
  require (← peek atName)
  anyWord

/-- Read a lifetime and return its name. -/
def lifetime : Reader String := do
  match ← ahead with
  | .punct '\'' true :: .ident name :: rest =>
    moveTo rest
    write (Token.lifetime name)
    return name
  | _ => failure

/-- Read a lifetime if one stands ahead. -/
def lifetime? : Reader (Option String) := do
  if ← peek atLifetime then return some (← lifetime) else return none

/-- Read a literal and return its text; a minus sign is written as a token of its own. -/
def literal : Reader String := do
  match ← ahead with
  | .literal text :: rest => moveTo rest; write [.literal text]; return text
  | .ident name :: rest =>
    require (name == "true" || name == "false")
    moveTo rest
    write [.ident name]
    return name
  | .punct '-' _ :: .literal text :: rest =>
    require (Literal.isNumber text)
    moveTo rest
    write [.punct '-' false, .literal text]
    return "-" ++ text
  | _ => failure

/-- Read a string literal and return its text. -/
def stringLiteral : Reader String := do
  require (← peek atString)
  literal

/-! ## Combining readers -/

/-- Read without writing. -/
def silently {α : Type} (p : Reader α) : Reader α := do
  let written := (← get).written
  let a ← p
  modify fun c => { c with written }
  return a

/-- Read without writing, and return what would have been written. -/
def captured {α : Type} (p : Reader α) : Reader (α × List Token) := do
  let written := (← get).written
  modify fun c => { c with written := [] }
  let a ← p
  let own := (← get).written
  modify fun c => { c with written }
  return (a, own.reverse)

/-- Read, and return the items met instead of recording them. -/
def collecting {α : Type} (p : Reader α) : Reader (α × List Item) := do
  let found := (← get).found
  modify fun c => { c with found := [] }
  let a ← p
  let own := (← get).found
  modify fun c => { c with found }
  return (a, own.reverse)

/-- Read a form that is kept as it was written: its tokens are written unchanged and the items
inside it do not count. -/
def verbatim {α : Type} (p : Reader α) : Reader α := do
  let start ← get
  let a ← p
  let rest ← ahead
  let own := start.rest.take (start.rest.length - rest.length)
  set { start with rest, written := own.reverse ++ start.written }
  return a

/-- Try a reader; if it fails nothing is read. -/
def attempt {α : Type} (p : Reader α) : Reader (Option α) := fun c =>
  match p c with
  | some (a, c') => some (some a, c')
  | none => some (none, c)

/-- Whether the group is at its end. -/
def atEnd : Reader Bool := peek List.isEmpty

/-- Read a group to its end. -/
def group {α : Type} (d : Delimiter) (p : Reader α) : Reader α := do
  match ← ahead with
  | .group e body :: rest =>
    require (d == e)
    let outer := (← get).written
    modify fun c => { c with rest := body, written := [] }
    let a ← p
    let inner ← get
    require inner.rest.isEmpty
    set { inner with rest, written := .group d inner.written.reverse :: outer }
    return a
  | _ => failure

/-- Read a group of any kind with whatever is in it; its tokens are written unchanged. -/
def anyGroup : Reader (Delimiter × List Token) := do
  match ← ahead with
  | .group d body :: rest => moveTo rest; write [.group d body]; return (d, body)
  | _ => failure

/-- Repeat a reader until it returns nothing, at most `n` times. -/
def repeatUpTo {α : Type} (step : Reader (Option α)) : Nat → List α → Reader (List α)
  | 0, _ => failure
  | n + 1, done => do
    match ← step with
    | some a => repeatUpTo step n (a :: done)
    | none => return done.reverse

/-- Repeat a reader until it returns nothing. -/
def repeatStep {α : Type} (step : Reader (Option α)) : Reader (List α) := do
  repeatUpTo step ((← ahead).length + 2) []

/-- Read as long as a condition holds of the tokens ahead. -/
def repeatWhile {α : Type} (p : List Token → Bool) (item : Reader α) : Reader (List α) :=
  repeatStep do if ← peek p then return some (← item) else return none

/-- Read to the end of the group. -/
def untilEnd {α : Type} (item : Reader α) : Reader (List α) :=
  repeatWhile (!·.isEmpty) item

/-- Read elements separated by an operator up to a stop; whether the last one is followed by
the operator is returned too. The first element may be missing. -/
def separatedUpTo {α : Type} (stop : List Token → Bool) (separator : String) (item : Reader α) :
    Nat → List α → Reader (List α × Bool)
  | 0, _ => failure
  | n + 1, done => do
    if ← peek stop then return (done.reverse, !done.isEmpty)
    let a ← item
    if ← peek stop then return ((a :: done).reverse, false)
    operator separator
    separatedUpTo stop separator item n (a :: done)

/-- Read elements separated by an operator up to a stop. -/
def separated {α : Type} (stop : List Token → Bool) (separator : String) (item : Reader α) :
    Reader (List α × Bool) := do
  separatedUpTo stop separator item ((← ahead).length + 2) []

/-- Read elements separated by commas to the end of the group. -/
def commaList {α : Type} (item : Reader α) : Reader (List α × Bool) :=
  separated List.isEmpty "," item

/-- Read elements joined by an operator, as long as the operator follows and no stop stands
before an element. -/
def joinedUpTo {α : Type} (stop : List Token → Bool) (separator : String) (item : Reader α) :
    Nat → List α → Reader (List α)
  | 0, _ => failure
  | n + 1, done => do
    if ← peek stop then return done.reverse
    let a ← item
    if ← operator? separator then joinedUpTo stop separator item n (a :: done)
    else return (a :: done).reverse

/-- Read elements joined by an operator. -/
def joined {α : Type} (stop : List Token → Bool) (separator : String) (item : Reader α) :
    Reader (List α) := do
  joinedUpTo stop separator item ((← ahead).length + 2) []

end ServiceDispatch.Grammar
