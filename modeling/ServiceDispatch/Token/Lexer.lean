import ServiceDispatch.Token
import ServiceDispatch.Token.Literal
import ServiceDispatch.Text.Escaped

/-!
# Reading tokens

Source text is cut into token trees. Blanks and plain comments separate tokens; a
documentation comment stands for an attribute that holds its text. Literals are tried before
punctuation, punctuation before names. Brackets have to match.
-/

namespace ServiceDispatch.Lexer

open ServiceDispatch.Text (isBlank isIdentStart)
open ServiceDispatch.Literal (Scan taking scanName)

/-- Whether a text starts with another one. -/
def startsWith (cs : List Char) (s : String) : Bool := s.toList.isPrefixOf cs

/-! ## Comments and blanks -/

/-- The rest of a line without its line break; the rest starts with the line feed. -/
def scanLine : List Char → List Char × List Char
  | [] => ([], [])
  | '\n' :: cs => ([], '\n' :: cs)
  | '\r' :: '\n' :: cs => ([], '\n' :: cs)
  | c :: cs =>
    let (taken, rest) := scanLine cs
    (c :: taken, rest)

/-- A block comment with the comments nested in it. -/
def scanBlock : Nat → Scan
  | depth, '/' :: '*' :: cs => taking ['/', '*'] (scanBlock (depth + 1) cs)
  | depth, '*' :: '/' :: cs =>
    if depth ≤ 1 then some (['*', '/'], cs) else taking ['*', '/'] (scanBlock (depth - 1) cs)
  | depth, c :: cs => taking [c] (scanBlock depth cs)
  | _, [] => none

/-- The rest after one blank character or one plain comment. -/
def skipOne? (cs : List Char) : Option (List Char) :=
  match cs with
  | '/' :: _ =>
    if startsWith cs "//" && (!startsWith cs "///" || startsWith cs "////") &&
        !startsWith cs "//!" then
      some (scanLine cs).2
    else if startsWith cs "/**/" then some (cs.drop 4)
    else if startsWith cs "/*" && (!startsWith cs "/**" || startsWith cs "/***") &&
        !startsWith cs "/*!" then
      (scanBlock 0 cs).map Prod.snd
    else none
  | c :: rest => if isBlank c || c.toNat == 0x200E || c.toNat == 0x200F then some rest else none
  | [] => none

/-- The rest after all blanks and plain comments at the front. -/
def skipBlanks : Nat → List Char → List Char
  | 0, cs => cs
  | fuel + 1, cs =>
    match skipOne? cs with
    | some rest => skipBlanks fuel rest
    | none => cs

/-- The text of a documentation comment, whether it belongs to what encloses it, and the rest. -/
def scanDoc? (cs : List Char) : Option (List Char × Bool × List Char) :=
  let block (inner : Bool) := (scanBlock 0 cs).map fun (taken, rest) =>
    ((taken.drop 3).take (taken.length - 5), inner, rest)
  if startsWith cs "//!" then
    let (line, rest) := scanLine (cs.drop 3)
    some (line, true, rest)
  else if startsWith cs "/*!" then block true
  else if startsWith cs "///" then
    if startsWith cs "////" then none
    else
      let (line, rest) := scanLine (cs.drop 3)
      some (line, false, rest)
  else if startsWith cs "/**" && !startsWith cs "/***" then block false
  else none

/-- Whether every carriage return is followed by a line feed. -/
def noBareReturn : List Char → Bool
  | '\r' :: '\n' :: cs => noBareReturn cs
  | '\r' :: _ => false
  | _ :: cs => noBareReturn cs
  | [] => true

/-- The attribute that a documentation comment stands for. -/
def docTokens (text : List Char) (inner : Bool) : List Token :=
  [.punct '#' false] ++ (if inner then [.punct '!' false] else []) ++
    [.group .bracket [.ident "doc", .punct '=' false, .literal (Text.quoted text)]]

/-! ## Single tokens -/

/-- The punctuation characters. -/
def isPunct (c : Char) : Bool := "~!@#$%^&*-=+|;:,<.>/?'".toList.contains c

/-- Whether a punctuation character that does not open a comment stands at the front. -/
def atPunct (cs : List Char) : Bool :=
  !startsWith cs "//" && !startsWith cs "/*" && cs.head?.any isPunct

/-- A name, raw or not. -/
def scanAnyName (cs : List Char) : Option (List Char × List Char) :=
  match cs with
  | 'r' :: '#' :: rest =>
    match scanName rest with
    | some (name, rest) =>
      if String.ofList name ∈ ["_", "super", "self", "Self", "crate"] then none
      else some ('r' :: '#' :: name, rest)
    | none => none
  | _ => scanName cs

/-- A name that is not the beginning of a quoted literal. -/
def scanIdent (cs : List Char) : Option (List Char × List Char) :=
  if ["r\"", "r#\"", "r##", "b\"", "b'", "br\"", "br#", "c\"", "cr\"", "cr#"].any (startsWith cs)
  then none else scanAnyName cs

/-- A punctuation character; a quote has to begin a lifetime. -/
def scanPunct (cs : List Char) : Option (Token × List Char) :=
  match cs with
  | [] => none
  | c :: rest =>
    if !atPunct cs then none
    else if c = '\'' then
      match scanAnyName rest with
      | some (_, after) =>
        if after.head? = some '\'' ∨ (after.head? = some '#' ∧ !startsWith rest "r#") then none
        else some (.punct c true, rest)
      | none => none
    else some (.punct c (atPunct rest), rest)

/-- The literal that stands for a recorded error. -/
def errorMark : String := "(/*ERROR*/)"

/-- A token that is not a group. -/
def scanLeaf (cs : List Char) : Option (Token × List Char) :=
  match Literal.scan cs with
  | some (text, rest) => some (.literal (String.ofList text), rest)
  | none =>
    match scanPunct cs with
    | some result => some result
    | none =>
      match scanIdent cs with
      | some (name, rest) => some (.ident (String.ofList name), rest)
      | none =>
        if startsWith cs errorMark then some (.literal errorMark, cs.drop errorMark.length)
        else none

/-! ## Token trees -/

/-- The delimiter that a character opens. -/
def opens? (c : Char) : Option Delimiter :=
  if c = '(' then some .paren
  else if c = '[' then some .bracket
  else if c = '\x7b' then some .brace
  else none

/-- The delimiter that a character closes. -/
def closes? (c : Char) : Option Delimiter :=
  if c = ')' then some .paren
  else if c = ']' then some .bracket
  else if c = '\x7d' then some .brace
  else none

/-- A group that is still open, with the tokens before it, latest first. -/
structure Frame where
  delimiter : Delimiter
  before : List Token

/-- Read on, with the tokens of the innermost open group, latest first. -/
def readOn : Nat → List Char → List Token → List Frame → Option (List Token)
  | 0, _, _, _ => none
  | fuel + 1, cs, done, frames =>
    match skipOne? cs with
    | some rest => readOn fuel rest done frames
    | none =>
      match scanDoc? cs with
      | some (text, inner, rest) =>
        if noBareReturn text then
          readOn fuel rest ((docTokens text inner).reverse ++ done) frames
        else none
      | none =>
        match cs with
        | [] => if frames.isEmpty then some done.reverse else none
        | c :: rest =>
          match opens? c, closes? c with
          | some d, _ =>
            if startsWith cs errorMark then
              readOn fuel (cs.drop errorMark.length) (.literal errorMark :: done) frames
            else readOn fuel rest [] (⟨d, done⟩ :: frames)
          | none, some d =>
            match frames with
            | frame :: outer =>
              if frame.delimiter = d then
                readOn fuel rest (.group d done.reverse :: frame.before) outer
              else none
            | [] => none
          | none, none =>
            match scanLeaf cs with
            | some (token, rest) => readOn fuel rest (token :: done) frames
            | none => none

/-- Drop a byte order mark at the front. -/
def withoutMark : List Char → List Char
  | c :: cs => if c.toNat = 0xFEFF then cs else c :: cs
  | [] => []

/-- The token trees of a text, unless it has a malformed token or unbalanced brackets. -/
def tokens? (text : List Char) : Option (List Token) :=
  let cs := withoutMark text
  readOn (cs.length + 1) cs [] []

/-- A source file without its first line, if that names an interpreter. -/
def withoutInterpreterLine (cs : List Char) : List Char :=
  match cs with
  | '#' :: '!' :: rest =>
    if (skipBlanks rest.length rest).head? = some '[' then cs
    else cs.dropWhile (· ≠ '\n')
  | _ => cs

/-- The token trees of a source file. -/
def fileTokens? (text : List Char) : Option (List Token) :=
  tokens? (withoutInterpreterLine (withoutMark text))

end ServiceDispatch.Lexer
