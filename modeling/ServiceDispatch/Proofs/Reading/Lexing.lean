import Mathlib.Data.List.TakeWhile
import Mathlib.Tactic.ByContra
import ServiceDispatch.Grammar.Reader
import ServiceDispatch.Token.Lexer

/-!
# Reading text piece by piece

A piece of text is read as some tokens if reading on from it comes to what follows with these
tokens, in whatever groups it stands. Names, separators and groups are such pieces, as long as what
follows does not go on with them.
-/

namespace ServiceDispatch.Lexer

open ServiceDispatch.Text (isIdentStart isIdentContinue isBlank)
open ServiceDispatch.Literal (scanName)

/-- Whether reading a piece of text comes to the rest with the given tokens. Each step of it takes
at least one character. -/
def Reads (cs rest : List Char) (ts : List Token) : Prop :=
  ∃ steps ≤ cs.length, ∀ fuel done frames,
    readOn (fuel + steps) (cs ++ rest) done frames = readOn fuel rest (ts.reverse ++ done) frames

variable {cs cs' rest : List Char} {ts ts' : List Token}

/-- Nothing is read as no tokens. -/
theorem Reads.nil (rest : List Char) : Reads [] rest [] :=
  ⟨0, Nat.le_refl 0, fun _ _ _ => rfl⟩

/-- Two pieces are read as the tokens of both, if the first one is read with the second one behind
it. -/
theorem Reads.append (h : Reads cs (cs' ++ rest) ts) (h' : Reads cs' rest ts') :
    Reads (cs ++ cs') rest (ts ++ ts') := by
  obtain ⟨steps, hsteps, hread⟩ := h
  obtain ⟨steps', hsteps', hread'⟩ := h'
  refine ⟨steps' + steps, ?_, ?_⟩
  · rw [List.length_append]
    omega
  · intro fuel done frames
    rw [← Nat.add_assoc, List.append_assoc, hread, hread', List.reverse_append, List.append_assoc]

/-- A whole text is read as its tokens. A mark at its beginning would be dropped. -/
theorem Reads.tokens? (h : Reads cs [] ts) (hmark : withoutMark cs = cs) :
    Lexer.tokens? cs = some ts := by
  obtain ⟨steps, hsteps, hread⟩ := h
  obtain ⟨spare, hspare⟩ := Nat.exists_eq_add_of_le hsteps
  have hfuel : cs.length + 1 = (spare + 1) + steps := by omega
  have hwhole := hread (spare + 1) [] []
  rw [List.append_nil, List.append_nil] at hwhole
  have hend (done : List Token) : readOn (spare + 1) [] done [] = some done.reverse := rfl
  rw [Lexer.tokens?, hmark, hfuel, hwhole, hend, List.reverse_reverse]

/-! ## Single steps -/

/-- Whether a character neither separates tokens nor begins a comment or a group. -/
def IsTokenStart (c : Char) : Prop :=
  c ≠ '/' ∧ isBlank c = false ∧ c.toNat ≠ 0x200E ∧ c.toNat ≠ 0x200F ∧ opens? c = none ∧
    closes? c = none

instance (c : Char) : Decidable (IsTokenStart c) := inferInstanceAs (Decidable (_ ∧ _))

/-- A character that begins no comment is not skipped, unless it is blank. -/
theorem skipOne?_eq_none {c : Char} (hslash : c ≠ '/') (hblank : isBlank c = false)
    (hleft : c.toNat ≠ 0x200E) (hright : c.toNat ≠ 0x200F) (rest : List Char) :
    skipOne? (c :: rest) = none := by
  unfold skipOne?
  split
  · rename_i heq
    exact absurd (List.cons.inj heq).1 hslash
  · rename_i heq
    obtain ⟨rfl, rfl⟩ := List.cons.inj heq
    simp [hblank, hleft, hright]
  · rfl

/-- A text that does not start with a slash is no documentation comment. -/
theorem scanDoc?_eq_none {c : Char} (hslash : c ≠ '/') (rest : List Char) :
    scanDoc? (c :: rest) = none := by
  have hstarts (s : String) (tail : List Char) (hs : s.toList = '/' :: tail) :
      startsWith (c :: rest) s = false := by
    rw [startsWith, hs, List.isPrefixOf, beq_eq_false_iff_ne.mpr (Ne.symm hslash), Bool.false_and]
  simp [scanDoc?, hstarts "//!" _ rfl, hstarts "/*!" _ rfl, hstarts "///" _ rfl,
    hstarts "/**" _ rfl]

/-- A token that is not a group is read in one step. -/
theorem Reads.leaf {c : Char} (hc : IsTokenStart c) {token : Token}
    (hscan : scanLeaf (c :: cs ++ rest) = some (token, rest)) : Reads (c :: cs) rest [token] := by
  obtain ⟨hslash, hblank, hleft, hright, hopens, hcloses⟩ := hc
  refine ⟨1, by simp, fun fuel done frames => ?_⟩
  rw [List.cons_append] at hscan ⊢
  conv => lhs; unfold readOn
  rw [skipOne?_eq_none hslash hblank hleft hright, scanDoc?_eq_none hslash]
  simp only [hopens, hcloses, hscan]
  rfl

/-- A space separates tokens and is none itself. -/
theorem Reads.space (rest : List Char) : Reads [' '] rest [] :=
  ⟨1, Nat.le_refl 1, fun _ _ _ => rfl⟩

/-! ## Groups -/

/-- The character that opens a group. -/
def openOf : Delimiter → Char
  | .paren => '('
  | .bracket => '['
  | .brace => '\x7b'

/-- The character that closes a group. -/
def closeOf : Delimiter → Char
  | .paren => ')'
  | .bracket => ']'
  | .brace => '\x7d'

/-- What stands between brackets is read as a group, unless it begins a comment. -/
theorem Reads.group {d : Delimiter} (h : Reads cs (closeOf d :: rest) ts)
    (hslash : (cs ++ [closeOf d]).head? ≠ some '/') :
    Reads (openOf d :: (cs ++ [closeOf d])) rest [.group d ts] := by
  obtain ⟨steps, hsteps, hread⟩ := h
  have hmark : startsWith (openOf d :: (cs ++ closeOf d :: rest)) errorMark = false := by
    cases d with
    | bracket => rfl
    | brace => rfl
    | paren =>
      cases cs with
      | nil => rfl
      | cons c cs =>
        have hc : '/' ≠ c := by
          rintro rfl
          exact hslash rfl
        simp [startsWith, errorMark, openOf, List.isPrefixOf, hc]
  have hopen (fuel : Nat) (done : List Token) (frames : List Frame) :
      readOn (fuel + 1) (openOf d :: (cs ++ closeOf d :: rest)) done frames =
        readOn fuel (cs ++ closeOf d :: rest) [] (⟨d, done⟩ :: frames) := by
    have hskip : skipOne? (openOf d :: (cs ++ closeOf d :: rest)) = none := by cases d <;> rfl
    have hdoc : scanDoc? (openOf d :: (cs ++ closeOf d :: rest)) = none := by cases d <;> rfl
    have hopens : opens? (openOf d) = some d := by cases d <;> rfl
    conv => lhs; unfold readOn
    rw [hskip, hdoc]
    simp only [hopens, hmark, Bool.false_eq_true, if_false]
  have hclose (fuel : Nat) (done before : List Token) (frames : List Frame) :
      readOn (fuel + 1) (closeOf d :: rest) done (⟨d, before⟩ :: frames) =
        readOn fuel rest (.group d done.reverse :: before) frames := by
    have hskip : skipOne? (closeOf d :: rest) = none := by cases d <;> rfl
    have hdoc : scanDoc? (closeOf d :: rest) = none := by cases d <;> rfl
    have hopens : opens? (closeOf d) = none := by cases d <;> rfl
    have hcloses : closes? (closeOf d) = some d := by cases d <;> rfl
    conv => lhs; unfold readOn
    rw [hskip, hdoc]
    simp only [hopens, hcloses, if_true]
  refine ⟨steps + 2, by simp; omega, fun fuel done frames => ?_⟩
  have hfuel : fuel + (steps + 2) = (fuel + 1) + steps + 1 := by omega
  rw [hfuel, List.cons_append, List.append_assoc, List.singleton_append, hopen, hread, hclose,
    List.append_nil, List.reverse_reverse]
  rfl

/-! ## Names -/

/-- The characters that end whatever token stands before them. -/
def breakChars : List Char := [' ', ':', '<', '>', ',', ';', ')', ']']

/-- Whether a text begins with the end of a token. -/
def Breaks (rest : List Char) : Prop := ∀ c, rest.head? = some c → c ∈ breakChars

/-- A text that begins with such a character begins with the end of a token. -/
theorem Breaks.cons {c : Char} (hc : c ∈ breakChars) (rest : List Char) : Breaks (c :: rest) := by
  intro d hd
  rwa [← Option.some.inj hd]

/-- No character that ends a token goes on with a name or begins a quoted text. -/
theorem not_isIdentContinue_of_mem_breakChars {c : Char} (hc : c ∈ breakChars) :
    isIdentContinue c = false ∧ c ≠ '"' ∧ c ≠ '\'' ∧ c ≠ '#' := by
  have hall : breakChars.all fun c =>
      isIdentContinue c = false ∧ c ≠ '"' ∧ c ≠ '\'' ∧ c ≠ '#' := by decide
  exact of_decide_eq_true (List.all_eq_true.mp hall c hc)

/-- Whether a text begins with what ends a word: no character that goes on with it, or that makes a
quoted text of it. -/
def EndsWord (rest : List Char) : Prop :=
  ∀ c, rest.head? = some c → isIdentContinue c = false ∧ c ≠ '"' ∧ c ≠ '\'' ∧ c ≠ '#'

/-- A text that begins with such a character ends a word. -/
theorem EndsWord.cons {c : Char}
    (hc : isIdentContinue c = false ∧ c ≠ '"' ∧ c ≠ '\'' ∧ c ≠ '#') (rest : List Char) :
    EndsWord (c :: rest) := by
  intro d hd
  rwa [← Option.some.inj hd]

/-- The end of a token ends a word, as no character of a name stands there. -/
theorem Breaks.endsWord {rest : List Char} (hrest : Breaks rest) : EndsWord rest :=
  fun c hc => not_isIdentContinue_of_mem_breakChars (hrest c hc)

/-- No character of a name begins a quoted text. -/
theorem ne_quote_of_isIdentContinue {c : Char} (hc : isIdentContinue c) :
    c ≠ '"' ∧ c ≠ '\'' ∧ c ≠ '#' := by
  refine ⟨?_, ?_, ?_⟩ <;> rintro rfl <;> exact absurd hc (by decide)

/-- The code points of blank characters. -/
def blankCodes : List Nat :=
  [9, 10, 11, 12, 13, 0x20, 0x85, 0xA0, 0x1680, 0x2000, 0x2001, 0x2002, 0x2003, 0x2004, 0x2005,
    0x2006, 0x2007, 0x2008, 0x2009, 0x200A, 0x2028, 0x2029, 0x202F, 0x205F, 0x3000]

/-- The code point of a blank character is one of the list. -/
theorem toNat_mem_blankCodes {c : Char} (hc : isBlank c) : c.toNat ∈ blankCodes := by
  simp only [isBlank, Bool.or_eq_true, Bool.and_eq_true, decide_eq_true_eq, beq_iff_eq] at hc
  simp only [blankCodes, List.mem_cons, List.not_mem_nil, or_false]
  omega

/-- A character that begins a name is none of those whose code points begin none. -/
theorem toNat_not_mem {c : Char} (hc : isIdentStart c) {codes : List Nat}
    (hcodes : ∀ n ∈ codes, isIdentStart (Char.ofNat n) = false) : c.toNat ∉ codes := by
  intro hmem
  have hnot := hcodes c.toNat hmem
  rw [Char.ofNat_toNat, hc] at hnot
  exact nomatch hnot

/-- The code points of the digits are ten in a row. -/
theorem toNat_mem_of_isDigit {c : Char} (hc : c.isDigit) : c.toNat ∈ List.range' 48 10 := by
  rw [Char.isDigit, Bool.and_eq_true, decide_eq_true_eq, decide_eq_true_eq] at hc
  rw [List.mem_range'_1]
  have hlow : 48 ≤ c.toNat := hc.1
  have hhigh : c.toNat ≤ 57 := hc.2
  omega

/-- A character that begins a name begins no other token. -/
theorem isTokenStart_of_isIdentStart {c : Char} (hc : isIdentStart c) :
    IsTokenStart c ∧ isPunct c = false ∧ c.isDigit = false := by
  have hne (d : Char) (hd : isIdentStart d = false) : c ≠ d := by
    rintro rfl
    rw [hc] at hd
    exact nomatch hd
  have hblank : isBlank c = false := by
    by_contra hblank
    rw [Bool.not_eq_false] at hblank
    exact toNat_not_mem hc (by decide +kernel) (toNat_mem_blankCodes hblank)
  have hmarks : c.toNat ∉ [0x200E, 0x200F] := toNat_not_mem hc (by decide +kernel)
  have hpunct : isPunct c = false := by
    by_contra hpunct
    rw [Bool.not_eq_false, isPunct, List.contains_iff_mem] at hpunct
    have hnone : "~!@#$%^&*-=+|;:,<.>/?'".toList.all fun d => !isIdentStart d := by decide
    exact hne c (Bool.not_eq_true' _ ▸ List.all_eq_true.mp hnone c hpunct) rfl
  have hdigit : c.isDigit = false := by
    by_contra hdigit
    rw [Bool.not_eq_false] at hdigit
    exact toNat_not_mem hc (by decide +kernel) (toNat_mem_of_isDigit hdigit)
  simp only [List.mem_cons, List.not_mem_nil, or_false, not_or] at hmarks
  have hopens : opens? c = none := by
    simp [opens?, hne '(' (by decide), hne '[' (by decide), hne '\x7b' (by decide)]
  have hcloses : closes? c = none := by
    simp [closes?, hne ')' (by decide), hne ']' (by decide), hne '\x7d' (by decide)]
  exact ⟨⟨hne '/' (by decide), hblank, hmarks.1, hmarks.2, hopens, hcloses⟩, hpunct, hdigit⟩

/-! ## Words -/

/-- Whether a text is one word: a name, raw or not, or a keyword. -/
def IsWord (word : String) : Prop := scanAnyName word.toList = some (word.toList, [])

instance (word : String) : Decidable (IsWord word) := inferInstanceAs (Decidable (_ = _))

/-- A name is taken whole before the end of a word. -/
theorem scanName_append {c : Char} (hc : isIdentStart c) {cs : List Char}
    (hcs : ∀ d ∈ cs, isIdentContinue d) {rest : List Char} (hrest : EndsWord rest) :
    scanName (c :: (cs ++ rest)) = some (c :: cs, rest) := by
  have hstop : rest.takeWhile isIdentContinue = [] ∧ rest.dropWhile isIdentContinue = rest := by
    cases rest with
    | nil => exact ⟨rfl, rfl⟩
    | cons d rest =>
      obtain ⟨hd, -⟩ := hrest d rfl
      simp [hd]
  rw [scanName, if_pos hc, List.takeWhile_append_of_pos hcs, List.dropWhile_append_of_pos hcs,
    hstop.1, hstop.2, List.append_nil]

/-- A text that is all taken as a name begins as one and goes on with it. -/
theorem of_scanName_eq_self {cs : List Char} (hscan : scanName cs = some (cs, [])) :
    ∃ c tail, cs = c :: tail ∧ isIdentStart c ∧ ∀ d ∈ tail, isIdentContinue d := by
  cases cs with
  | nil => exact nomatch hscan
  | cons c tail =>
    rw [scanName] at hscan
    split at hscan
    · rename_i hc
      obtain ⟨htaken, -⟩ := Prod.mk.inj (Option.some.inj hscan)
      have htail := List.takeWhile_eq_self_iff.mp (List.cons.inj htaken).2
      exact ⟨c, tail, rfl, hc, htail⟩
    · exact nomatch hscan

/-- A word is a name, or a raw one. A raw name is not one of the few that cannot be raw. -/
theorem IsWord.cases {word : String} (hword : IsWord word) :
    ∃ c tail, isIdentStart c ∧ (∀ d ∈ tail, isIdentContinue d) ∧
      (word.toList = c :: tail ∨ word.toList = 'r' :: '#' :: c :: tail ∧
        String.ofList (c :: tail) ∉ ["_", "super", "self", "Self", "crate"]) := by
  unfold IsWord scanAnyName at hword
  split at hword
  · rename_i rest heq
    split at hword
    · rename_i name rest' hname
      split at hword
      · exact nomatch hword
      · rename_i hraw
        obtain ⟨htaken, rfl⟩ := Prod.mk.inj (Option.some.inj hword)
        rw [heq] at htaken
        obtain rfl := (List.cons.inj (List.cons.inj htaken).2).2
        obtain ⟨c, tail, rfl, hc, htail⟩ := of_scanName_eq_self hname
        exact ⟨c, tail, hc, htail, .inr ⟨heq, hraw⟩⟩
    · exact nomatch hword
  · obtain ⟨c, tail, heq, hc, htail⟩ := of_scanName_eq_self hword
    exact ⟨c, tail, hc, htail, .inl heq⟩

/-- A word begins like a name, also if it is raw. -/
theorem IsWord.exists_isIdentStart {word : String} (hword : IsWord word) :
    ∃ c cs, word.toList = c :: cs ∧ isIdentStart c := by
  obtain ⟨c, tail, hc, -, heq | ⟨heq, -⟩⟩ := hword.cases
  · exact ⟨c, tail, heq, hc⟩
  · exact ⟨'r', '#' :: c :: tail, heq, by decide⟩

/-- What follows some characters of a name begins no quoted text, if it ends them. -/
theorem head?_append_of_endsWord {cs : List Char} (hcs : ∀ d ∈ cs, isIdentContinue d)
    {rest : List Char} (hrest : EndsWord rest) {c : Char} (hc : (cs ++ rest).head? = some c) :
    c ≠ '"' ∧ c ≠ '\'' ∧ c ≠ '#' := by
  cases cs with
  | nil => exact (hrest c hc).2
  | cons d cs =>
    obtain rfl := Option.some.inj hc
    exact ne_quote_of_isIdentContinue (hcs d List.mem_cons_self)

/-- A word is taken whole before its end, with the mark of a raw name. -/
theorem IsWord.scanAnyName_append {word : String} (hword : IsWord word) {rest : List Char}
    (hrest : EndsWord rest) : scanAnyName (word.toList ++ rest) = some (word.toList, rest) := by
  obtain ⟨c, tail, hc, htail, heq | ⟨heq, hraw⟩⟩ := hword.cases
  · rw [heq, List.cons_append]
    unfold scanAnyName
    split
    · rename_i rest' hraw
      obtain ⟨-, hhash⟩ := List.cons.inj hraw
      have hhead : (tail ++ rest).head? = some '#' := by
        rw [hhash]
        rfl
      exact absurd rfl (head?_append_of_endsWord htail hrest hhead).2.2
    · exact scanName_append hc htail hrest
  · rw [heq]
    simp only [List.cons_append, scanAnyName, scanName_append hc htail hrest]
    exact if_neg hraw

/-- No raw literal goes on with characters of a name. -/
theorem scanRaw_append {cs : List Char} (hcs : ∀ d ∈ cs, isIdentContinue d) {rest : List Char}
    (hrest : EndsWord rest) (kind : Literal.Kind) : Literal.scanRaw kind (cs ++ rest) = none := by
  have hdrop : (cs ++ rest).dropWhile (· = '#') = cs ++ rest := by
    cases heq : cs ++ rest with
    | nil => rfl
    | cons d tail =>
      have hd := (head?_append_of_endsWord hcs hrest (heq ▸ rfl : (cs ++ rest).head? = some d)).2.2
      rw [List.dropWhile_cons, if_neg (by simpa using hd)]
  unfold Literal.scanRaw
  rw [hdrop]
  dsimp only
  split
  · rename_i body heq
    have hhead : (cs ++ rest).head? = some '"' := by
      rw [heq]
      rfl
    exact absurd rfl (head?_append_of_endsWord hcs hrest hhead).1
  · rfl

/-- A name is no quoted literal: no quote stands behind its first characters. -/
theorem scanQuoted_append {c : Char} (hc : isIdentStart c) {tail : List Char}
    (htail : ∀ d ∈ tail, isIdentContinue d) {rest : List Char} (hrest : EndsWord rest) :
    Literal.scanQuoted (c :: (tail ++ rest)) = none := by
  have hfirst := ne_quote_of_isIdentContinue (Text.isIdentContinue_of_isIdentStart hc)
  have hsecond {d : Char} {after : List Char} (heq : tail ++ rest = d :: after) :
      d ≠ '"' ∧ d ≠ '\'' ∧ d ≠ '#' :=
    head?_append_of_endsWord htail hrest (heq ▸ rfl)
  have hraw {after : List Char} (heq : tail ++ rest = 'r' :: after) (kind : Literal.Kind) :
      Literal.scanRaw kind after = none := by
    cases tail with
    | nil =>
      have hhead : rest.head? = some 'r' := by
        rw [← List.nil_append rest, heq]
        rfl
      exact absurd (hrest 'r' hhead).1 (by decide)
    | cons d tail =>
      obtain ⟨-, rfl⟩ := List.cons.inj heq
      exact scanRaw_append (List.forall_mem_cons.mp htail).2 hrest kind
  unfold Literal.scanQuoted
  split
  · rename_i heq
    exact absurd (List.cons.inj heq).1 hfirst.1
  · rename_i heq
    exact absurd rfl (hsecond (List.cons.inj heq).2).1
  · rename_i heq
    exact absurd rfl (hsecond (List.cons.inj heq).2).1
  · rename_i heq
    exact absurd rfl (hsecond (List.cons.inj heq).2).2.1
  · rename_i heq
    exact absurd (List.cons.inj heq).1 hfirst.2.1
  · rename_i heq
    obtain ⟨-, rfl⟩ := List.cons.inj heq
    rw [scanRaw_append htail hrest]
    rfl
  · rename_i heq
    rw [hraw (List.cons.inj heq).2]
    rfl
  · rename_i heq
    rw [hraw (List.cons.inj heq).2]
    rfl
  · rfl

/-- A digit is one as a hexadecimal digit less than ten. -/
theorem ten_le_of_hexValue? {c : Char} {digit : Nat} (hdigit : c.isDigit = false)
    (hvalue : Literal.hexValue? c = some digit) : 10 ≤ digit := by
  unfold Literal.hexValue? at hvalue
  split at hvalue
  · rename_i hrange
    have hdigit' : c.isDigit = true := by
      rw [Char.isDigit, Bool.and_eq_true, decide_eq_true_eq, decide_eq_true_eq]
      exact hrange
    rw [hdigit] at hdigit'
    exact nomatch hdigit'
  · split at hvalue
    · rename_i hrange
      have hlow : 97 ≤ c.toNat := hrange.1
      obtain rfl := Option.some.inj hvalue
      omega
    · split at hvalue
      · rename_i hrange
        have hlow : 65 ≤ c.toNat := hrange.1
        obtain rfl := Option.some.inj hvalue
        omega
      · exact nomatch hvalue

/-- A number begins with a digit. -/
theorem scanNumber_eq_none {c : Char} (hdigit : c.isDigit = false) (cs : List Char) :
    Literal.scanNumber (c :: cs) = none := by
  have hfloat : Literal.scanFloatDigits (c :: cs) = none := by
    rw [Literal.scanFloatDigits, hdigit]
    rfl
  have hbase : Literal.scanBaseDigits 10 true (c :: cs) = none := by
    rw [Literal.scanBaseDigits, if_neg (by simp [hdigit])]
    split
    · rfl
    · split
      · rename_i digit hvalue
        rw [if_pos (ten_le_of_hexValue? hdigit hvalue)]
        rfl
      · rfl
  have hint : Literal.scanIntDigits (c :: cs) = none := by
    unfold Literal.scanIntDigits
    split
    · rename_i heq
      rw [(List.cons.inj heq).1] at hdigit
      exact nomatch hdigit
    · rename_i heq
      rw [(List.cons.inj heq).1] at hdigit
      exact nomatch hdigit
    · rename_i heq
      rw [(List.cons.inj heq).1] at hdigit
      exact nomatch hdigit
    · exact hbase
  rw [Literal.scanNumber, hfloat, hint]
  rfl

/-- What begins with a name that ends there does not begin with a text in which a name ends
otherwise. -/
theorem startsWith_append_eq_false {cs : List Char} (hcs : ∀ d ∈ cs, isIdentContinue d)
    {rest : List Char} (hrest : EndsWord rest) {text : String}
    (hends : (text.toList.dropWhile isIdentContinue).head?.any (· ∈ ['"', '\'', '#'])) :
    startsWith (cs ++ rest) text = false := by
  by_contra hstarts
  obtain ⟨q, hq, hquote⟩ := (Option.any_eq_true _ _).mp hends
  rw [Bool.not_eq_false, startsWith, List.isPrefixOf_iff_prefix] at hstarts
  obtain ⟨more, hmore⟩ := hstarts
  have hrest' : rest.dropWhile isIdentContinue = rest := by
    cases rest with
    | nil => rfl
    | cons d rest =>
      rw [List.dropWhile_cons, (hrest d rfl).1]
      rfl
  have hafter : text.toList.dropWhile isIdentContinue ++ more = rest := by
    have hdrop := congrArg (List.dropWhile isIdentContinue) hmore
    rw [List.dropWhile_append_of_pos hcs, hrest', List.dropWhile_append, if_neg ?_] at hdrop
    · exact hdrop
    · rw [List.isEmpty_iff]
      intro hnil
      rw [hnil] at hq
      exact nomatch hq
  have hhead : rest.head? = some q := by
    rw [← hafter, List.head?_append, hq, Option.some_or]
  have hmem := of_decide_eq_true hquote
  simp only [List.mem_cons, List.not_mem_nil, or_false] at hmem
  obtain ⟨-, hdouble, hsingle, hhash⟩ := hrest q hhead
  exact hmem.elim hdouble (·.elim hsingle hhash)

/-- A word begins no quoted literal, so that it is taken whole before its end. -/
theorem IsWord.scanIdent_append {word : String} (hword : IsWord word) {rest : List Char}
    (hrest : EndsWord rest) : scanIdent (word.toList ++ rest) = some (word.toList, rest) := by
  have hquoted : ["r\"", "r#\"", "r##", "b\"", "b'", "br\"", "br#", "c\"", "cr\"", "cr#"].any
      (startsWith (word.toList ++ rest)) = false := by
    obtain ⟨c, tail, hc, htail, heq | ⟨heq, -⟩⟩ := hword.cases
    · have hcs : ∀ d ∈ word.toList, isIdentContinue d := by
        rw [heq]
        exact List.forall_mem_cons.mpr ⟨Text.isIdentContinue_of_isIdentStart hc, htail⟩
      have hends : ∀ text ∈
          ["r\"", "r#\"", "r##", "b\"", "b'", "br\"", "br#", "c\"", "cr\"", "cr#"],
          (text.toList.dropWhile isIdentContinue).head?.any (· ∈ ['"', '\'', '#']) := by decide
      rw [List.any_eq_false]
      intro text htext
      rw [startsWith_append_eq_false hcs hrest (hends text htext)]
      exact Bool.false_ne_true
    · obtain ⟨hquote, -, hhash⟩ :=
        ne_quote_of_isIdentContinue (Text.isIdentContinue_of_isIdentStart hc)
      simp [heq, startsWith, List.isPrefixOf, Ne.symm hquote, Ne.symm hhash]
  rw [scanIdent, hquoted]
  exact hword.scanAnyName_append hrest

/-- A word is read as one token before its end. Its first character is that of a name also if the
name is raw. -/
theorem Reads.word {word : String} (hword : IsWord word) {rest : List Char}
    (hrest : EndsWord rest) :
    Reads word.toList rest [.ident word] := by
  have hident := hword.scanIdent_append hrest
  obtain ⟨c, tail, hc, htail, hshape⟩ := hword.cases
  obtain ⟨d, after, heq, hd, hliteral⟩ : ∃ d after, word.toList = d :: after ∧ isIdentStart d ∧
      Literal.scan (d :: (after ++ rest)) = none := by
    rcases hshape with heq | ⟨heq, -⟩
    · refine ⟨c, tail, heq, hc, ?_⟩
      rw [Literal.scan, scanQuoted_append hc htail hrest,
        scanNumber_eq_none (isTokenStart_of_isIdentStart hc).2.2]
      rfl
    · obtain ⟨hquote, -, hhash⟩ :=
        ne_quote_of_isIdentContinue (Text.isIdentContinue_of_isIdentStart hc)
      have hraw : Literal.scanRaw .text ('#' :: c :: (tail ++ rest)) = none := by
        unfold Literal.scanRaw
        simp only [List.dropWhile_cons, decide_true, if_true, hhash, decide_false,
          Bool.false_eq_true, if_false]
        split
        · rename_i hcons
          exact absurd (List.cons.inj hcons).1 hquote
        · rfl
      refine ⟨'r', '#' :: c :: tail, heq, by decide, ?_⟩
      rw [Literal.scan, scanNumber_eq_none (by decide), Option.or_none]
      show Literal.taking ['r'] (Literal.scanRaw .text ('#' :: c :: (tail ++ rest))) = none
      rw [hraw]
      rfl
  obtain ⟨hstart, hpunct, -⟩ := isTokenStart_of_isIdentStart hd
  have hnopunct : scanPunct (d :: (after ++ rest)) = none := by
    simp [scanPunct, atPunct, hpunct]
  rw [heq, List.cons_append] at hident
  rw [heq]
  refine Reads.leaf hstart ?_
  rw [List.cons_append, scanLeaf, hliteral, hnopunct, hident]
  simp [← heq]

/-- The word `mut` may stand before a name or an operand. -/
theorem Reads.mutWord (mutable : Bool) (rest : List Char) :
    Reads (if mutable then "mut".toList ++ [' '] else []) rest
      (if mutable then [.ident "mut"] else []) := by
  cases mutable with
  | true =>
    exact (Reads.word (by decide : IsWord "mut") (.cons (by decide) _)).append (Reads.space _)
  | false => exact Reads.nil _

/-! ## Separators -/

/-- The punctuation characters that begin neither a comment nor a lifetime. -/
def separators : List Char := [':', '<', '>', ',', ';', '&', '*', '=', '.', '?', '-', '#', '!']

/-- A separator is read as one token, which is joint if another one follows. -/
theorem Reads.separator {c : Char} (hc : c ∈ separators) (rest : List Char) :
    Reads [c] rest [.punct c (atPunct rest)] := by
  have hstart : separators.all fun c => IsTokenStart c ∧ c.isDigit = false ∧ c ≠ '\'' := by decide
  obtain ⟨htoken, hdigit, hquote⟩ := of_decide_eq_true (List.all_eq_true.mp hstart c hc)
  have hquoted : Literal.scanQuoted (c :: rest) = none ∧ atPunct (c :: rest) = true := by
    simp only [separators, List.mem_cons, List.not_mem_nil, or_false] at hc
    rcases hc with rfl | rfl | rfl | rfl | rfl | rfl | rfl | rfl | rfl | rfl | rfl | rfl | rfl <;>
      exact ⟨rfl, rfl⟩
  refine Reads.leaf htoken ?_
  rw [List.cons_append, List.nil_append, scanLeaf, Literal.scan, hquoted.1,
    scanNumber_eq_none hdigit]
  simp [scanPunct, hquoted.2, hquote]

/-- Two colons are read as joint, so that they are one operator. -/
theorem Reads.colons (rest : List Char) :
    Reads [':', ':'] rest [.punct ':' true, .punct ':' (atPunct rest)] :=
  (Reads.separator (by decide) (':' :: rest)).append (Reads.separator (by decide) rest)

/-- No separator begins a word, so that a sign in front of it is not joint. -/
theorem IsWord.atPunct_append {word : String} (hword : IsWord word) (rest : List Char) :
    atPunct (word.toList ++ rest) = false := by
  obtain ⟨c, cs, heq, hc⟩ := hword.exists_isIdentStart
  simp [heq, atPunct, (isTokenStart_of_isIdentStart hc).2.1]

/-- The tokens of names after separators. -/
def memberTokens (names : List String) : List Token :=
  names.flatMap fun name => [.punct ':' true, .punct ':' false, .ident name]

/-- The names in a path are read one after the other. -/
theorem Reads.members {names : List String} (hnames : ∀ name ∈ names, IsWord name)
    {rest : List Char} (hrest : EndsWord rest) :
    Reads (names.flatMap fun name => ':' :: ':' :: name.toList) rest (memberTokens names) := by
  induction names with
  | nil => exact Reads.nil rest
  | cons name names ih =>
    obtain ⟨hname, hothers⟩ := List.forall_mem_cons.mp hnames
    have hends : EndsWord ((names.flatMap fun name => ':' :: ':' :: name.toList) ++ rest) := by
      cases names with
      | nil => exact hrest
      | cons next names => exact .cons (by decide) _
    have hmembers := (Reads.word hname hends).append (ih hothers)
    have hcolons := Reads.colons (name.toList ++
      (names.flatMap fun name => ':' :: ':' :: name.toList) ++ rest)
    rw [List.append_assoc, hname.atPunct_append, ← List.append_assoc] at hcolons
    exact hcolons.append hmembers

/-- The lifetime `'static` is read as two tokens, a joint quote and its name. -/
theorem Reads.static {rest : List Char} (hrest : Breaks rest) :
    Reads "'static".toList rest (Token.lifetime "static") := by
  have hword : IsWord "static" := by decide
  have hquote : Reads ['\''] ("static".toList ++ rest) [.punct '\'' true] := by
    refine Reads.leaf (by decide) ?_
    have hscan : Literal.scan ('\'' :: ("static".toList ++ rest)) = none := by
      rw [Literal.scan, scanNumber_eq_none (by decide)]
      rfl
    have hafter : rest.head? ≠ some '\'' ∧ rest.head? ≠ some '#' :=
      ⟨fun hhead => absurd (hrest _ hhead) (by decide),
        fun hhead => absurd (hrest _ hhead) (by decide)⟩
    have hname := hword.scanAnyName_append hrest.endsWord
    rw [List.cons_append, List.nil_append, scanLeaf, hscan]
    simp only [scanPunct, hname, hafter.1, hafter.2, false_and, or_false, if_false]
    rfl
  exact hquote.append (Reads.word hword hrest.endsWord)

end ServiceDispatch.Lexer
