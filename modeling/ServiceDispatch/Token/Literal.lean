import ServiceDispatch.Text.Blank
import ServiceDispatch.Text.IdentChar

/-!
# Literals

The written forms of strings, byte strings, zero-terminated strings, bytes, characters and
numbers. A scanner takes the longest prefix of the text that is such a literal, with its
suffix, and returns it with the rest. The value of a string literal undoes its escapes.
-/

namespace ServiceDispatch.Literal

open ServiceDispatch.Text (isBlank isIdentStart isIdentContinue)

/-- A scanner returns what it takes from the front of a text, and the rest. -/
abbrev Scan := List Char → Option (List Char × List Char)

/-- Put characters in front of what was taken. -/
def taking (front : List Char) : Option (List Char × List Char) → Option (List Char × List Char) :=
  Option.map fun (taken, rest) => (front ++ taken, rest)

/-- A name that is not raw. -/
def scanName : Scan
  | c :: cs => if isIdentStart c then some (c :: cs.takeWhile isIdentContinue,
      cs.dropWhile isIdentContinue) else none
  | [] => none

/-- The suffix of a literal: a name, or nothing. -/
def scanSuffix (cs : List Char) : List Char × List Char := (scanName cs).getD ([], cs)

/-- The end of a quoted literal: the closing characters, then the suffix. -/
def closing (front cs : List Char) : Option (List Char × List Char) :=
  let (suffix, rest) := scanSuffix cs
  some (front ++ suffix, rest)

/-- The value of a hexadecimal digit. -/
def hexValue? (c : Char) : Option Nat :=
  if '0' ≤ c ∧ c ≤ '9' then some (c.toNat - 48)
  else if 'a' ≤ c ∧ c ≤ 'f' then some (c.toNat - 87)
  else if 'A' ≤ c ∧ c ≤ 'F' then some (c.toNat - 55)
  else none

/-! ## Escapes -/

/-- The kinds of quoted text, which differ in the characters and escapes they allow. -/
inductive Kind where
  | text
  | bytes
  | terminated
deriving DecidableEq, Repr

/-- The blanks after an escaped line break; a carriage return needs its line feed. -/
def scanContinuation : Bool → Scan
  | true, '\n' :: cs => taking ['\n'] (scanContinuation false cs)
  | true, _ => none
  | false, c :: cs =>
    if c = ' ' ∨ c = '\t' ∨ c = '\n' then taking [c] (scanContinuation false cs)
    else if c = '\r' then taking [c] (scanContinuation true cs)
    else some ([], c :: cs)
  | false, [] => none

/-- The digits of a code point escape up to its closing brace, and their value. -/
def scanCodePoint (value count : Nat) : List Char → Option (Nat × List Char × List Char)
  | [] => none
  | c :: cs =>
    match hexValue? c with
    | some digit =>
      if count = 6 then none
      else (scanCodePoint (16 * value + digit) (count + 1) cs).map fun (v, t, r) => (v, c :: t, r)
    | none =>
      if c = '_' ∧ count > 0 then
        (scanCodePoint value count cs).map fun (v, t, r) => (v, c :: t, r)
      else if c = '\x7d' ∧ count > 0 then
        if value.isValidChar then some (value, [c], cs) else none
      else none

/-- An escape after its backslash. -/
def scanEscape (kind : Kind) : Scan
  | 'x' :: a :: b :: cs =>
    match hexValue? a, hexValue? b with
    | some high, some low =>
      if kind = .text ∧ high > 7 then none
      else if kind = .terminated ∧ high = 0 ∧ low = 0 then none
      else some (['x', a, b], cs)
    | _, _ => none
  | 'u' :: '\x7b' :: cs =>
    if kind = .bytes then none
    else match scanCodePoint 0 0 cs with
      | some (value, taken, rest) =>
        if kind = .terminated ∧ value = 0 then none else some ('u' :: '\x7b' :: taken, rest)
      | none => none
  | c :: cs =>
    if c ∈ ['n', 'r', 't', '\\', '\'', '"'] ∨ (c = '0' ∧ kind ≠ .terminated) then some ([c], cs)
    else none
  | [] => none

/-! ## Quoted literals -/

/-- The body and end of a literal in double quotes. -/
def scanCooked (kind : Kind) : Nat → Scan
  | 0, _ => none
  | _ + 1, [] => none
  | fuel + 1, c :: cs =>
    if c = '"' then closing [c] cs
    else if c = '\r' then
      match cs with
      | '\n' :: rest => taking ['\r', '\n'] (scanCooked kind fuel rest)
      | _ => none
    else if c = '\\' then
      match cs with
      | b :: rest =>
        let step := if b = '\n' ∨ b = '\r' then taking [b] (scanContinuation (b = '\r') rest)
          else scanEscape kind cs
        match step with
        | some (taken, rest) => taking (c :: taken) (scanCooked kind fuel rest)
        | none => none
      | [] => none
    else if kind = .bytes ∧ c.toNat ≥ 128 then none
    else if kind = .terminated ∧ c.toNat = 0 then none
    else taking [c] (scanCooked kind fuel cs)

/-- The body and end of a raw literal whose closing quote is followed by `hashes`. -/
def scanRawBody (kind : Kind) (hashes : List Char) : Scan
  | [] => none
  | '\r' :: '\n' :: cs => taking ['\r', '\n'] (scanRawBody kind hashes cs)
  | c :: cs =>
    if c = '"' ∧ hashes.isPrefixOf cs then closing (c :: hashes) (cs.drop hashes.length)
    else if c = '\r' then none
    else if kind = .bytes ∧ c.toNat ≥ 128 then none
    else if kind = .terminated ∧ c.toNat = 0 then none
    else taking [c] (scanRawBody kind hashes cs)

/-- A raw literal after its letters: at most 255 hashes, then a quote. -/
def scanRaw (kind : Kind) (cs : List Char) : Option (List Char × List Char) :=
  let hashes := cs.takeWhile (· = '#')
  match cs.dropWhile (· = '#') with
  | '"' :: body =>
    if hashes.length > 255 then none else taking (hashes ++ ['"']) (scanRawBody kind hashes body)
  | _ => none

/-- A character or byte literal after its opening quote. -/
def scanCharacter (kind : Kind) : Scan
  | '\\' :: cs =>
    match scanEscape kind cs with
    | some (taken, '\'' :: rest) => closing ('\\' :: taken ++ ['\'']) rest
    | _ => none
  | c :: '\'' :: rest =>
    if kind = .bytes ∧ c.toNat ≥ 128 then none else closing [c, '\''] rest
  | _ => none

/-- A literal that is quoted in any of the ways. -/
def scanQuoted (cs : List Char) : Option (List Char × List Char) :=
  match cs with
  | '"' :: rest => taking ['"'] (scanCooked .text (rest.length + 1) rest)
  | 'b' :: '"' :: rest => taking ['b', '"'] (scanCooked .bytes (rest.length + 1) rest)
  | 'c' :: '"' :: rest => taking ['c', '"'] (scanCooked .terminated (rest.length + 1) rest)
  | 'b' :: '\'' :: rest => taking ['b', '\''] (scanCharacter .bytes rest)
  | '\'' :: rest => taking ['\''] (scanCharacter .text rest)
  | 'r' :: rest => taking ['r'] (scanRaw .text rest)
  | 'b' :: 'r' :: rest => taking ['b', 'r'] (scanRaw .bytes rest)
  | 'c' :: 'r' :: rest => taking ['c', 'r'] (scanRaw .terminated rest)
  | _ => none

/-! ## Numbers -/

/-- The end of a number: its suffix, after which no name goes on. -/
def numberEnd (digits cs : List Char) : Option (List Char × List Char) := closing digits cs

/-- Digits and underscores with at most one dot; the flags tell whether a dot was taken and
whether an exponent letter ended the digits. -/
def scanMantissa (hasDot : Bool) : List Char → Option (List Char × Bool × Bool × List Char)
  | [] => some ([], hasDot, false, [])
  | c :: cs =>
    if c.isDigit ∨ c = '_' then
      (scanMantissa hasDot cs).map fun (t, d, e, r) => (c :: t, d, e, r)
    else if c = '.' then
      if hasDot then some ([], hasDot, false, c :: cs)
      else if cs.head?.any fun d => d == '.' || isIdentStart d then none
      else (scanMantissa true cs).map fun (t, d, e, r) => (c :: t, d, e, r)
    else if c = 'e' ∨ c = 'E' then some ([c], hasDot, true, cs)
    else some ([], hasDot, false, c :: cs)

/-- An exponent: an optional sign before the first digit, then digits and underscores. -/
def scanExponent (hasSign hasValue : Bool) : Scan
  | [] => if hasValue then some ([], []) else none
  | c :: cs =>
    if c = '+' ∨ c = '-' then
      if hasValue then some ([], c :: cs)
      else if hasSign then none
      else taking [c] (scanExponent true hasValue cs)
    else if c.isDigit then taking [c] (scanExponent hasSign true cs)
    else if c = '_' then taking [c] (scanExponent hasSign hasValue cs)
    else if hasValue then some ([], c :: cs) else none

/-- The digits of a number with a dot or an exponent. -/
def scanFloatDigits : Scan
  | [] => none
  | c :: cs =>
    if c.isDigit then
      match scanMantissa false cs with
      | some (taken, hasDot, true, rest) =>
        match scanExponent false false rest with
        | some (exponent, rest) => some (c :: taken ++ exponent, rest)
        | none =>
          if hasDot then some (c :: taken.dropLast, taken.drop (taken.length - 1) ++ rest) else none
      | some (taken, true, false, rest) => some (c :: taken, rest)
      | _ => none
    else none

/-- The digits of a whole number in a base; a decimal digit beyond the base is refused. -/
def scanBaseDigits (base : Nat) (empty : Bool) : Scan
  | [] => if empty then none else some ([], [])
  | c :: cs =>
    if c.isDigit then
      if c.toNat - 48 ≥ base then none else taking [c] (scanBaseDigits base false cs)
    else if c = '_' then
      if empty ∧ base = 10 then none else taking [c] (scanBaseDigits base empty cs)
    else
      match hexValue? c with
      | some digit =>
        if digit ≥ base then (if empty then none else some ([], c :: cs))
        else taking [c] (scanBaseDigits base false cs)
      | none => if empty then none else some ([], c :: cs)

/-- The digits of a whole number, with the marker of its base. -/
def scanIntDigits : Scan
  | '0' :: 'x' :: cs => taking ['0', 'x'] (scanBaseDigits 16 true cs)
  | '0' :: 'o' :: cs => taking ['0', 'o'] (scanBaseDigits 8 true cs)
  | '0' :: 'b' :: cs => taking ['0', 'b'] (scanBaseDigits 2 true cs)
  | cs => scanBaseDigits 10 true cs

/-- A number with its suffix; no character of a name may follow. -/
def scanNumber (cs : List Char) : Option (List Char × List Char) :=
  let finish : List Char × List Char → Option (List Char × List Char) := fun (digits, rest) =>
    match numberEnd digits rest with
    | some (taken, rest) => if rest.head?.any isIdentContinue then none else some (taken, rest)
    | none => none
  match (scanFloatDigits cs).bind finish with
  | some result => some result
  | none => (scanIntDigits cs).bind finish

/-- Any literal. -/
def scan (cs : List Char) : Option (List Char × List Char) :=
  (scanQuoted cs).or (scanNumber cs)

/-! ## Values -/

/-- The characters that a body in double quotes stands for. -/
def unescape : Nat → List Char → List Char
  | 0, _ => []
  | _ + 1, [] => []
  | fuel + 1, c :: cs =>
    if c = '"' then []
    else if c = '\\' then
      match cs with
      | 'x' :: a :: b :: rest =>
        Char.ofNat (16 * (hexValue? a).getD 0 + (hexValue? b).getD 0) :: unescape fuel rest
      | 'u' :: '\x7b' :: rest =>
        match scanCodePoint 0 0 rest with
        | some (value, _, rest) => Char.ofNat value :: unescape fuel rest
        | none => []
      | 'n' :: rest => '\n' :: unescape fuel rest
      | 'r' :: rest => '\r' :: unescape fuel rest
      | 't' :: rest => '\t' :: unescape fuel rest
      | '0' :: rest => Char.ofNat 0 :: unescape fuel rest
      | '\n' :: rest => unescape fuel (rest.dropWhile isBlank)
      | '\r' :: rest => unescape fuel (rest.dropWhile isBlank)
      | d :: rest => d :: unescape fuel rest
      | [] => []
    else if c = '\r' then
      match cs with
      | '\n' :: rest => '\n' :: unescape fuel rest
      | _ => c :: unescape fuel cs
    else c :: unescape fuel cs

/-- The value of a string literal, whatever its suffix; nothing for any other literal. -/
def stringValue? (text : String) : Option String :=
  match text.toList with
  | '"' :: body => some (String.ofList (unescape (body.length + 1) body))
  | 'r' :: rest =>
    let hashes := rest.takeWhile (· = '#')
    let body := (rest.drop (hashes.length + 1)).reverse
    let upToQuote := body.dropWhile (· ≠ '"')
    some (String.ofList (upToQuote.drop 1).reverse)
  | _ => none

/-- Whether a literal is a string. -/
def isString (text : String) : Bool := (stringValue? text).isSome

/-- Whether a literal is a number. -/
def isNumber (text : String) : Bool := text.toList.head?.any Char.isDigit

/-- Whether a number is written with a dot or an exponent. -/
def isFloat (text : String) : Bool :=
  match scanFloatDigits text.toList with
  | some _ => true
  | none => false

/-- The value of a whole number without suffix. -/
def natValue? (text : String) : Option Nat :=
  let digits := fun (base : Nat) (cs : List Char) =>
    (cs.filter (· ≠ '_')).foldlM (fun n c => do
      let d ← hexValue? c
      if d < base then some (base * n + d) else none) 0
  match text.toList with
  | '0' :: 'x' :: cs => digits 16 cs
  | '0' :: 'o' :: cs => digits 8 cs
  | '0' :: 'b' :: cs => digits 2 cs
  | cs => if cs.head?.any Char.isDigit then digits 10 cs else none

end ServiceDispatch.Literal
