/-!
# Blank characters

White space in the sense of the Unicode property `White_Space`: twenty-five characters.
Trimming a text removes every blank character from its ends.
-/

namespace ServiceDispatch.Text

/-- The characters with the Unicode property `White_Space`. -/
def isBlank (c : Char) : Bool :=
  let n := c.toNat
  (9 ≤ n && n ≤ 13) || n == 0x20 || n == 0x85 || n == 0xA0 || n == 0x1680 ||
  (0x2000 ≤ n && n ≤ 0x200A) || n == 0x2028 || n == 0x2029 || n == 0x202F ||
  n == 0x205F || n == 0x3000

/-- Remove the blank characters at the front. -/
def trimFront (cs : List Char) : List Char := cs.dropWhile isBlank

/-- Remove the blank characters at the back. -/
def trimBack (cs : List Char) : List Char := (cs.reverse.dropWhile isBlank).reverse

/-- Remove the blank characters at both ends. -/
def trim (cs : List Char) : List Char := trimBack (trimFront cs)

/-- A text without the blank characters at its ends. -/
def trimmed (s : String) : String := String.ofList (trim s.toList)

end ServiceDispatch.Text
