import ServiceDispatch.Proofs.Reading.Spelling

/-!
# Numerals

Decimal digits are read as a number, and a number spells the length of an array and a constant.
-/

namespace ServiceDispatch

namespace Lexer

/-- Whether a text is a number of decimal digits. -/
def IsNumeral (text : String) : Prop := text.toList ≠ [] ∧ text.toList.all Char.isDigit

instance (text : String) : Decidable (IsNumeral text) := inferInstanceAs (Decidable (_ ∧ _))

/-- No character that ends a token goes on with a number. -/
theorem not_digit_of_mem_breakChars {c : Char} (hc : c ∈ breakChars) :
    c.isDigit = false ∧ c ∉ ['_', '.', 'e', 'E', 'x', 'o', 'b'] ∧ Literal.hexValue? c = none := by
  have hall : breakChars.all fun c => c.isDigit = false ∧
      c ∉ ['_', '.', 'e', 'E', 'x', 'o', 'b'] ∧ Literal.hexValue? c = none := by decide
  exact of_decide_eq_true (List.all_eq_true.mp hall c hc)

/-- A decimal digit is none of the letters in numbers. -/
theorem not_mem_of_isDigit {c : Char} (hc : c.isDigit) :
    c ∉ ['_', '.', 'e', 'E', 'x', 'o', 'b', '"', '\'', 'c', 'r'] := by
  intro hmem
  have hall : ['_', '.', 'e', 'E', 'x', 'o', 'b', '"', '\'', 'c', 'r'].all (!·.isDigit) := by
    decide
  have hnot := List.all_eq_true.mp hall c hmem
  rw [hc] at hnot
  exact nomatch hnot

variable {cs rest : List Char}

/-- Digits before the end of a token have neither a dot nor an exponent. -/
theorem scanMantissa_append (hcs : ∀ c ∈ cs, c.isDigit) (hrest : Breaks rest) :
    Literal.scanMantissa false (cs ++ rest) = some (cs, false, false, rest) := by
  induction cs with
  | nil =>
    cases rest with
    | nil => rfl
    | cons c rest =>
      obtain ⟨hdigit, hletters, -⟩ := not_digit_of_mem_breakChars (hrest c rfl)
      simp only [List.mem_cons, List.not_mem_nil, or_false, not_or] at hletters
      simp [Literal.scanMantissa, hdigit, hletters]
  | cons c cs ih =>
    obtain ⟨hc, hothers⟩ := List.forall_mem_cons.mp hcs
    rw [List.cons_append, Literal.scanMantissa, if_pos (.inl hc), ih hothers]
    rfl

/-- Digits before the end of a token are taken as a whole number. -/
theorem scanBaseDigits_append (hcs : ∀ c ∈ cs, c.isDigit) (hrest : Breaks rest) {empty : Bool}
    (hempty : cs = [] → empty = false) :
    Literal.scanBaseDigits 10 empty (cs ++ rest) = some (cs, rest) := by
  induction cs generalizing empty with
  | nil =>
    rw [hempty rfl]
    cases rest with
    | nil => rfl
    | cons c rest =>
      obtain ⟨hdigit, hletters, hhex⟩ := not_digit_of_mem_breakChars (hrest c rfl)
      simp only [List.mem_cons, List.not_mem_nil, or_false, not_or] at hletters
      simp [Literal.scanBaseDigits, hdigit, hletters, hhex]
  | cons c cs ih =>
    obtain ⟨hc, hothers⟩ := List.forall_mem_cons.mp hcs
    have hten : ¬ c.toNat - 48 ≥ 10 := by
      have hcode := List.mem_range'_1.mp (toNat_mem_of_isDigit hc)
      omega
    rw [List.cons_append, Literal.scanBaseDigits, if_pos hc, if_neg hten, ih hothers fun _ => rfl]
    rfl

/-- A number is taken whole before the end of a token. Behind a zero stands no letter that would
give it another base. -/
theorem scanNumber_append {c : Char} (hcs : ∀ d ∈ c :: cs, d.isDigit) (hrest : Breaks rest) :
    Literal.scanNumber (c :: cs ++ rest) = some (c :: cs, rest) := by
  obtain ⟨hc, hothers⟩ := List.forall_mem_cons.mp hcs
  have hfloat : Literal.scanFloatDigits (c :: cs ++ rest) = none := by
    rw [List.cons_append, Literal.scanFloatDigits, if_pos hc, scanMantissa_append hothers hrest]
  have hint : Literal.scanIntDigits (c :: cs ++ rest) = some (c :: cs, rest) := by
    have hsecond {d : Char} {after : List Char} (heq : c :: cs ++ rest = '0' :: d :: after) :
        d ∉ ['x', 'o', 'b'] := by
      intro hd
      obtain ⟨-, htail⟩ := List.cons.inj heq
      have hletters : ['x', 'o', 'b'] ⊆ ['_', '.', 'e', 'E', 'x', 'o', 'b'] :=
        List.subset_append_right ['_', '.', 'e', 'E'] _
      cases cs with
      | nil =>
        obtain rfl : rest = d :: after := htail
        exact (not_digit_of_mem_breakChars (hrest d rfl)).2.1 (hletters hd)
      | cons e cs =>
        obtain ⟨rfl, -⟩ := List.cons.inj htail
        exact not_mem_of_isDigit (hothers e List.mem_cons_self)
          (List.mem_append_left _ (hletters hd))
    unfold Literal.scanIntDigits
    split
    · rename_i heq
      exact absurd (by decide) (hsecond heq)
    · rename_i heq
      exact absurd (by decide) (hsecond heq)
    · rename_i heq
      exact absurd (by decide) (hsecond heq)
    · exact scanBaseDigits_append hcs hrest fun h => absurd h (List.cons_ne_nil c cs)
  have hsuffix : Literal.scanName rest = none ∧ rest.head?.any Text.isIdentContinue = false := by
    cases rest with
    | nil => exact ⟨rfl, rfl⟩
    | cons d rest =>
      obtain ⟨hd, -⟩ := not_isIdentContinue_of_mem_breakChars (hrest d rfl)
      have hstart : ¬ Text.isIdentStart d := by
        intro hstart
        exact Bool.false_ne_true (hd.symm.trans (Text.isIdentContinue_of_isIdentStart hstart))
      exact ⟨if_neg hstart, hd⟩
  rw [Literal.scanNumber, hfloat, hint]
  simp [Literal.numberEnd, Literal.closing, Literal.scanSuffix, hsuffix]

/-- No quoted literal begins with a digit, so that a number is scanned as one. -/
theorem scanQuoted_eq_none {c : Char} (hc : c.isDigit) (cs : List Char) :
    Literal.scanQuoted (c :: cs) = none := by
  have hnot := not_mem_of_isDigit hc
  simp only [List.mem_cons, List.not_mem_nil, or_false, not_or] at hnot
  unfold Literal.scanQuoted
  split
  all_goals first
    | rename_i heq
      obtain ⟨rfl, -⟩ := List.cons.inj heq
      simp at hnot
    | rfl

/-- A number is read as a literal before the end of a token. -/
theorem Reads.numeral {text : String} (htext : IsNumeral text) (hrest : Breaks rest) :
    Reads text.toList rest [.literal text] := by
  obtain ⟨hne, hdigits⟩ := htext
  rw [List.all_eq_true] at hdigits
  cases hchars : text.toList with
  | nil => exact absurd hchars hne
  | cons c cs =>
    rw [hchars] at hdigits
    have hc := hdigits c List.mem_cons_self
    have hstart : IsTokenStart c := by
      have hall : ∀ n ∈ List.range' 48 10, IsTokenStart (Char.ofNat n) := by decide
      have hstart := hall c.toNat (toNat_mem_of_isDigit hc)
      rwa [Char.ofNat_toNat] at hstart
    refine Reads.leaf hstart ?_
    rw [scanLeaf, Literal.scan, List.cons_append, scanQuoted_eq_none hc, ← List.cons_append,
      scanNumber_append hdigits hrest]
    simp [← hchars]

end Lexer

namespace Grammar

open Lexer (IsNumeral Reads)

/-- A number spells the length of an array, as it is an expression by itself. -/
theorem spellsLength_numeral {text : String} (htext : IsNumeral text) :
    SpellsLength text [.literal text] := by
  intro rest hrest
  refine ⟨[.literal text], Reads.numeral htext hrest, fun n hn => ⟨.literal text, ?_⟩⟩
  have hlevels : 4 ≤ n := by
    have hbound : nesting [.literal text] = 24 := rfl
    omega
  obtain ⟨m, rfl⟩ := Nat.exists_eq_add_of_le' hlevels
  exact fun written found => ⟨written, found, rfl⟩

/-- A number spells a constant, which is marked as no lifetime and no type. -/
theorem spells_numeral {text : String} (htext : IsNumeral text) :
    Spells BeginsArg argAt text (.const [.literal text]) := by
  intro rest hrest
  refine ⟨_, [], Reads.numeral htext hrest, ?_, fun n tail hn htail => ?_⟩
  · exact fun c hc joint heq => nomatch heq
  have hread : Leaves (captured (constArgument (rulesUpTo n))) (.literal text :: tail) tail
      ((), [.literal text]) := fun written found => ⟨written, found, rfl⟩
  exact Leaves.genericArg (Leaves.genericArgOf_const rfl rfl hread)

end Grammar

end ServiceDispatch
