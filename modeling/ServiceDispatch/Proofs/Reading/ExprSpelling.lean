import ServiceDispatch.Proofs.Reading.Exprs
import ServiceDispatch.Proofs.Reading.Spelling

/-!
# Spelling expressions

Operands are spelled by the names of a path, by the calls, methods and question marks behind them,
and by the prefix operators before them.
-/

namespace ServiceDispatch.Grammar

open ServiceDispatch.Lexer (EndsWord IsWord Reads memberTokens)

variable {rest : List Char} {tail : List Token} {braces : Bool}

/-! ## Paths -/

/-- Whether an atom ends here: its operand ends, or a call, a member or a question mark is ahead. -/
def EndsAtom (braces : Bool) (tail : List Token) : Prop :=
  Follows [',', ';', '=', '.', '?'] braces tail ∨ ∃ body ts, tail = .group .paren body :: ts

/-- What is not ahead where an atom ends: no attribute, no exclamation mark, and no brace where one
would open a struct. -/
theorem EndsAtom.notAhead (htail : EndsAtom braces tail) :
    Ends tail ∧ atOperator "#" tail = false ∧ atBang tail = false ∧
      (braces && atGroup .brace tail) = false := by
  rcases htail with htail | ⟨body, ts, rfl⟩
  · cases tail with
    | nil => exact ⟨by simp [Ends], rfl, rfl, Bool.and_false _⟩
    | cons t ts =>
      rcases htail t rfl with ⟨c, hc, joint, rfl⟩ | ⟨rfl, body, rfl⟩
      · have hall : ∀ c ∈ [',', ';', '=', '.', '?'], c ∉ [':', '<', '!', '+'] ∧ c ≠ '#' := by
          simp
        have hends : Ends (.punct c joint :: ts) := by
          intro d hd joint' hhead
          obtain ⟨rfl, -⟩ := Token.punct.inj (Option.some.inj hhead)
          exact (hall c hc).1 hd
        refine ⟨hends, atOperator_eq_false rfl fun joint' hhead => ?_, ?_, Bool.and_false _⟩
        · exact (hall c hc).2 (Token.punct.inj (Option.some.inj hhead)).1
        · rw [atBang, hends.atOperator_eq_false rfl (by decide), Bool.false_and]
      · exact ⟨by simp [Ends], rfl, rfl, rfl⟩
  · exact ⟨by simp [Ends], rfl, rfl, Bool.and_false _⟩

/-- Whether a text spells the generic arguments of a name in an expression. -/
def SpellsFish (text : String) (args : PathArgs) : Prop :=
  ∀ rest, EndsWord rest → EndsWord (text.toList ++ rest) ∧ ∃ ts, Reads text.toList rest ts ∧
    (∀ tail, atOperator "#" tail = false → atOperator "#" (ts ++ tail) = false) ∧
    ∀ n tail, nesting ts ≤ n → Ends tail → ∀ name ∉ keywords,
      Leaves (segment (argAt n) true) (.ident name :: (ts ++ tail)) tail (.mk name args)

/-- No text spells no generic arguments, so that they may be missing. -/
theorem spellsFish_none : SpellsFish "" .none := by
  refine fun rest hrest => ⟨hrest, [], Reads.nil rest, fun tail hhash => hhash, ?_⟩
  intro n tail _ htail name hname
  refine Leaves.segment_plain (.inr hname) (htail.atOperator_eq_false rfl (by decide)) ?_
  rw [List.nil_append, htail.atOperator_eq_false rfl (by decide), Bool.false_and]

/-- A type between `::<` and `>` is read as generic arguments. -/
theorem SpellsType.exists_angledArgs {text : String} {type : Ty} (htype : SpellsType text type)
    (rest : List Char) :
    ∃ joint ts, Reads ("::<" ++ text ++ ">").toList rest
        (.punct ':' true :: .punct ':' true :: .punct '<' joint :: ts) ∧
      ∀ n tail, nesting ts ≤ n →
        Leaves (angledArgs (argAt n))
          (.punct ':' true :: .punct ':' true :: .punct '<' joint :: (ts ++ tail)) tail
          (.angled true [.type type] false) := by
  have htext : ("::<" ++ text ++ ">").toList = [':', ':'] ++ (['<'] ++ (text.toList ++ ['>'])) := by
    simp
  obtain ⟨t, ts, hread, ht, hleaves⟩ := htype.spells_arg ('>' :: rest) (.cons (by decide) rest)
  have hcolons := Reads.colons (['<'] ++ (text.toList ++ ['>']) ++ rest)
  have hopen := Reads.separator (by decide : '<' ∈ Lexer.separators)
    (text.toList ++ ['>'] ++ rest)
  have hclose := Reads.separator (by decide : '>' ∈ Lexer.separators) rest
  have hall := hcolons.append (hopen.append (hread.append hclose))
  rw [← htext] at hall
  refine ⟨_, _, hall, fun n tail hn => ?_⟩
  have hsize := (nesting_le_of_append (t :: ts) _ hn).1
  have hitem := hleaves n (.punct '>' (Lexer.atPunct rest) :: tail) hsize
    (.cons (by decide) _ tail)
  have hstart : atOperator ">" (t :: (ts ++ .punct '>' (Lexer.atPunct rest) :: tail)) = false :=
    atOperator_eq_false rfl fun joint hhead => ht '>' (by decide) joint (Option.some.inj hhead)
  have hstop : atOperator ">" (.punct '>' (Lexer.atPunct rest) :: tail) = true :=
    atOperator_singleton rfl (by decide) _ tail
  have hseparated : Leaves (separated (atOperator ">") "," (argAt n))
      (t :: (ts ++ .punct '>' (Lexer.atPunct rest) :: tail))
      (.punct '>' (Lexer.atPunct rest) :: tail) ([.type type], false) :=
    Leaves.separated (.last hstart hitem hstop) (by simp)
  refine Leaves.bind (Leaves.operator?_some rfl (Leaves.colons true _)) ?_
  refine Leaves.bind (Leaves.operator_singleton rfl (by decide) _ _) ?_
  show Leaves _ (t :: ts ++ [.punct '>' (Lexer.atPunct rest)] ++ tail) tail _
  rw [List.append_assoc]
  refine Leaves.bind hseparated ?_
  exact Leaves.bind (Leaves.operator_singleton rfl (by decide) _ tail) (Leaves.pure _ tail)

/-- A type between `::<` and `>` spells the generic arguments of a name. -/
theorem spellsFish_type {text : String} {type : Ty} (htype : SpellsType text type) :
    SpellsFish ("::<" ++ text ++ ">") (.angled true [.type type] false) := by
  intro rest hrest
  obtain ⟨joint, ts, hread, hleaves⟩ := htype.exists_angledArgs rest
  refine ⟨?_, _, hread, fun _ _ => rfl, fun n tail hn htail name hname => ?_⟩
  · rw [String.append_assoc, String.toList_append, List.append_assoc]
    exact .cons (by decide) _
  · have hsize : nesting ts ≤ n := by
      rw [nesting_cons, nesting_cons, nesting_cons] at hn
      omega
    exact Leaves.segment_turbofish hname (hleaves n tail hsize)

/-! ## Atoms -/

/-- Whether a text spells an atom, and begins no comment. -/
structure SpellsAtom (text : String) : Prop where
  spells : ∀ rest, EndsWord rest → ∃ t ts, Reads text.toList rest (t :: ts) ∧
    (∀ more, Leaves.NoPrefix (t :: more)) ∧ (∀ more, atExprStart (t :: (ts ++ more))) ∧
      ∀ n braces tail, nesting (t :: ts) ≤ n + 2 → EndsAtom braces tail →
        Leaves (atom (rulesUpTo n) braces) (t :: (ts ++ tail)) tail .other
  start : text.toList.head? ≠ some '/'
  ne_nil : text.toList ≠ []

/-- The tokens of names, with those of generic arguments behind the last one, are read as an
atom. -/
theorem Leaves.atom_names (rooted : Bool) {first : String} {names : List String}
    (hfirst : BeginsPath first) (hnames : ∀ name ∈ names, name ∉ keywords)
    (hcrate : first = "crate" → names ≠ []) {ts : List Token} {args : PathArgs} {n : Nat}
    (hhash : ∀ tail, atOperator "#" tail = false → atOperator "#" (ts ++ tail) = false)
    (hlast : nesting ts ≤ n → Ends tail → ∀ name ∉ keywords,
      Leaves (segment (argAt n) true) (.ident name :: (ts ++ tail)) tail (.mk name args))
    (hn : nesting (rootTokens rooted ++ .ident first :: memberTokens names ++ ts) ≤ n + 2)
    (htail : EndsAtom braces tail) :
    Leaves (atom (rulesUpTo n) braces)
      (rootTokens rooted ++ .ident first :: memberTokens names ++ ts ++ tail) tail .other := by
  obtain ⟨hend, hnohash, hbang, hbrace⟩ := htail.notAhead
  have hsize : nesting ts ≤ n := by
    rw [List.append_assoc] at hn
    have hnames := (nesting_le_of_append _ _ hn).2
    rw [List.cons_append, nesting_cons] at hnames
    have hback := (nesting_le_of_append _ ts (Nat.le_of_add_left_le hnames)).2
    have hpos := size_pos (.ident first)
    have := (nesting_le_of_append (memberTokens names) ts (n := n) (by omega)).2
    omega
  have hmembers : atOperator "#" (memberTokens names ++ (ts ++ tail)) = false := by
    cases names with
    | nil => exact hhash tail hnohash
    | cons name names => rfl
  have hsegments : Leaves (Grammar.segments (argAt n) true)
      (rootTokens rooted ++ .ident first :: (memberTokens names ++ (ts ++ tail))) tail
      (rooted, Segment.ofNames args (first :: names)) :=
    segments hfirst hnames hcrate (hlast hsize hend) (hend.atOperator_eq_false rfl (by decide))
  have hatom := atom_path hfirst hmembers hsegments hbang hbrace
  simpa only [List.append_assoc, List.cons_append] using hatom

/-- Names with generic arguments behind the last one spell an atom. Its first token is that of the
root or the first name. -/
theorem spellsAtom_path (rooted : Bool) (first : String) (names : List String)
    (hfirst : IsWord first ∧ BeginsPath first)
    (hnames : ∀ name ∈ names, IsWord name ∧ name ∉ keywords) (hcrate : first = "crate" → names ≠ [])
    {text whole : String} {args : PathArgs}
    (hwhole : whole.toList = (if rooted then [':', ':'] else []) ++
      (first.toList ++ names.flatMap fun name => ':' :: ':' :: name.toList) ++ text.toList)
    (hargs : SpellsFish text args) : SpellsAtom whole := by
  refine ⟨fun rest hrest => ?_, fun hhead => (start_of_names hfirst.1 hwhole '/' hhead).1 rfl, ?_⟩
  case refine_2 =>
    obtain ⟨c, cs, hchars, -⟩ := hfirst.1.exists_isIdentStart
    rw [hwhole, hchars]
    simp
  obtain ⟨hends, ts, hread, hhash, hlast⟩ := hargs rest hrest
  have hpath := (reads_names rooted hfirst.1 (fun name h => (hnames name h).1) hends).append hread
  rw [← hwhole] at hpath
  have hleaves (n : Nat) (braces : Bool) (tail : List Token)
      (hn : nesting (Leaves.rootTokens rooted ++ .ident first :: memberTokens names ++ ts) ≤ n + 2)
      (htail : EndsAtom braces tail) := Leaves.atom_names rooted hfirst.2
    (fun name h => (hnames name h).2) hcrate hhash (hlast n tail) hn htail
  cases rooted with
  | true =>
    have hstart : ∀ more, atExprStart
        (Leaves.rootTokens true ++ .ident first :: memberTokens names ++ ts ++ more) := by
      simp [atExprStart, Leaves.rootTokens, atOperator, atOperatorChars]
    refine ⟨_, _, hpath, fun more c hc joint hhead => ?_, hstart, hleaves⟩
    obtain ⟨rfl, -⟩ := Token.punct.inj (Option.some.inj hhead)
    exact absurd hc (by decide)
  | false =>
    refine ⟨_, _, hpath, fun more c hc joint hhead => ?_, fun _ => rfl, hleaves⟩
    cases hhead

/-! ## Operands -/

/-- Whether a text spells an operand, and begins no comment. -/
structure SpellsOperand (text : String) : Prop where
  spells : ∀ rest, EndsWord rest → ∃ t ts, Reads text.toList rest (t :: ts) ∧
    ∀ n braces tail, nesting (t :: ts) ≤ n + 1 → EndsOperand braces tail →
      Leaves (rulesUpTo n (.operand braces)) (t :: (ts ++ tail)) tail .other
  start : text.toList.head? ≠ some '/'

/-- The readers of operands read what the operand leaves one level below. -/
theorem leaves_operand {own ts tail : List Token} {n : Nat} (hn : nesting own ≤ n + 1)
    (hoperand : ∀ m, nesting own ≤ m + 2 →
      Leaves (readOperand (rulesUpTo m) braces) ts tail .other) :
    Leaves (rulesUpTo n (.operand braces)) ts tail .other := by
  rw [nesting] at hn
  obtain ⟨m, rfl⟩ : ∃ m, n = m + 1 := ⟨n - 1, by omega⟩
  exact hoperand m hn

/-- An operand behind an asterisk is spelled as one, since the asterisk is a prefix operator there.
-/
theorem SpellsOperand.deref {text : String} (htext : SpellsOperand text) :
    SpellsOperand ("*" ++ text) := by
  have hchars : ("*" ++ text).toList = ['*'] ++ text.toList := by simp
  refine ⟨fun rest hrest => ?_, by rw [hchars]; exact nofun⟩
  obtain ⟨t, ts, hread, hleaves⟩ := htext.spells rest hrest
  have hstar := Reads.separator (by decide : '*' ∈ Lexer.separators) (text.toList ++ rest)
  rw [hchars]
  refine ⟨_, _, hstar.append hread, fun n braces tail hn htail => ?_⟩
  refine leaves_operand hn fun m hm => Leaves.readOperand_deref (hleaves m braces tail ?_ htail)
  have hsize := nesting_le_of_cons _ (t :: ts) hm
  exact hsize

/-- An asterisk behind an ampersand reborrows an operand, also with `mut` between them. -/
theorem SpellsOperand.reborrow {text : String} (htext : SpellsOperand text) (mutable : Bool) :
    SpellsOperand ("&" ++ (if mutable then "mut " else "") ++ "*" ++ text) := by
  have hchars : ("&" ++ (if mutable then "mut " else "") ++ "*" ++ text).toList =
      ['&'] ++ ((if mutable then "mut".toList ++ [' '] else []) ++ (['*'] ++ text.toList)) := by
    cases mutable <;> simp
  refine ⟨fun rest hrest => ?_, by rw [hchars]; exact nofun⟩
  obtain ⟨t, ts, hread, hleaves⟩ := htext.spells rest hrest
  have hstar := Reads.separator (by decide : '*' ∈ Lexer.separators) (text.toList ++ rest)
  have hall := (Reads.separator (by decide : '&' ∈ Lexer.separators) _).append
    ((Reads.mutWord mutable _).append (hstar.append hread))
  rw [hchars]
  refine ⟨_, _, hall, fun n braces tail hn htail => ?_⟩
  refine leaves_operand hn fun m hm => ?_
  have hsize : nesting (.punct '*' (Lexer.atPunct (text.toList ++ rest)) :: t :: ts) ≤ m + 1 := by
    have hback := nesting_le_of_cons _ _ hm
    exact (nesting_le_of_append (if mutable then [.ident "mut"] else []) _ hback).2
  have hderef : Leaves (rulesUpTo m (.operand braces))
      (.punct '*' (Lexer.atPunct (text.toList ++ rest)) :: t :: (ts ++ tail)) tail .other :=
    leaves_operand hsize fun k hk => Leaves.readOperand_deref
      (hleaves k braces tail (nesting_le_of_cons _ (t :: ts) hk) htail)
  cases mutable with
  | true => exact Leaves.readOperand_reference rfl (Leaves.word?_some "mut" _) hderef
  | false => exact Leaves.readOperand_reference rfl (Leaves.word?_none rfl) hderef

/-! ## Calls, methods and question marks -/

/-- Whether a text spells the arguments of a call, and begins no comment. -/
structure SpellsArguments (text : String) : Prop where
  spells : ∀ rest, ∃ ts, Reads text.toList (')' :: rest) ts ∧ ∀ n, nesting ts ≤ n →
    ∃ forms trailing, Leaves (commaList (rulesUpTo n).expr) ts [] (forms, trailing)
  start : text.toList.head? ≠ some '/'

/-- An operand is read as an expression where the expression ends. The bound on nesting is that of
the tokens of the operand. -/
theorem leaves_expr {own ts tail : List Token} {n : Nat} (hn : nesting own ≤ n)
    (hoperand : ∀ m, nesting own ≤ m + 1 → Leaves (rulesUpTo m (.operand braces)) ts tail .other)
    (htail : Stops braces tail) : Leaves (rulesUpTo n (.expr braces)) ts tail .other := by
  have hpos := hn
  rw [nesting] at hpos
  obtain ⟨m, rfl⟩ : ∃ m, n = m + 2 := ⟨n - 2, by omega⟩
  exact Leaves.readExpr (hoperand (m + 1) hn) (Leaves.readClimb_none htail .other .lowest)

/-- An operand with nothing behind it is read as an expression. -/
theorem leaves_expr_last {own : List Token} {n : Nat} (hn : nesting own ≤ n)
    (hleaves : ∀ m braces tail, nesting own ≤ m + 1 → EndsOperand braces tail →
      Leaves (rulesUpTo m (.operand braces)) (own ++ tail) tail .other) :
    Leaves (rulesUpTo n).expr own [] .other := by
  refine leaves_expr hn (fun m hm => ?_) (.nil _ true)
  have hoperand := hleaves m true [] hm (.nil _ true)
  rwa [List.append_nil] at hoperand

/-- There may be no argument between the parentheses of a call. -/
theorem spellsArguments_nil : SpellsArguments "" :=
  ⟨fun _ => ⟨[], Reads.nil _, fun _ _ => ⟨[], false, Leaves.separated (.nil rfl) (Nat.le_refl 0)⟩⟩,
    nofun⟩

/-- A single operand is an argument, without a comma behind it. -/
theorem SpellsOperand.arguments {text : String} (htext : SpellsOperand text) :
    SpellsArguments text := by
  refine ⟨fun rest => ?_, htext.start⟩
  obtain ⟨t, ts, hread, hleaves⟩ := htext.spells (')' :: rest) (.cons (by decide) rest)
  refine ⟨t :: ts, hread, fun n hn => ⟨[.other], false, ?_⟩⟩
  exact Leaves.separated (.last rfl (leaves_expr_last hn hleaves) rfl) (by simp)

/-- Two operands with a comma between them are arguments, read one after the other. -/
theorem SpellsOperand.arguments₂ {first second : String} (hfirst : SpellsOperand first)
    (hsecond : SpellsOperand second) : SpellsArguments (first ++ ", " ++ second) := by
  have hchars : (first ++ ", " ++ second).toList =
      first.toList ++ ([','] ++ ([' '] ++ second.toList)) := by simp
  refine ⟨fun rest => ?_, ?_⟩
  · obtain ⟨t, ts, hread, hleaves⟩ := hfirst.spells
      ([','] ++ ([' '] ++ second.toList) ++ ')' :: rest) (.cons (by decide) _)
    obtain ⟨t', ts', hread', hleaves'⟩ := hsecond.spells (')' :: rest) (.cons (by decide) rest)
    have hcomma := Reads.separator (by decide : ',' ∈ Lexer.separators)
      ([' '] ++ second.toList ++ ')' :: rest)
    have hall := hread.append (hcomma.append ((Reads.space _).append hread'))
    rw [← hchars] at hall
    refine ⟨_, hall, fun n hn => ⟨[.other, .other], false, ?_⟩⟩
    obtain ⟨hfront, hback⟩ := nesting_le_of_append (t :: ts) _ hn
    have hsize := (nesting_le_of_append [_] (t' :: ts') hback).2
    have hexpr : Leaves (rulesUpTo n).expr (t :: (ts ++ .punct ',' false :: t' :: ts'))
        (.punct ',' false :: t' :: ts') .other :=
      leaves_expr hfront (fun m hm => hleaves m true _ hm (.punct (by decide) true false _))
        (.punct (by decide) true false _)
    have hexpr' : Leaves (rulesUpTo n).expr (t' :: ts') [] .other := leaves_expr_last hsize hleaves'
    refine Leaves.separated (.cons rfl hexpr rfl (Leaves.operator_singleton rfl (by decide) false _)
      (.last rfl hexpr' rfl)) ?_
    simp
    omega
  · rw [hchars, List.head?_append]
    intro hhead
    rcases Option.or_eq_some_iff.mp hhead with hhead | ⟨-, hhead⟩
    · exact hfirst.start hhead
    · exact nomatch hhead

/-- Arguments in parentheses are read as those of a call. -/
theorem SpellsArguments.exists_arguments {text : String} (htext : SpellsArguments text)
    (rest : List Char) :
    ∃ body, Reads ("(" ++ text ++ ")").toList rest [.group .paren body] ∧
      ∀ n tail, nesting [.group .paren body] ≤ n + 1 →
        Leaves (arguments (rulesUpTo n)) (.group .paren body :: tail) tail () := by
  have hchars : ("(" ++ text ++ ")").toList = '(' :: (text.toList ++ [')']) := by simp
  obtain ⟨body, hread, hleaves⟩ := htext.spells rest
  refine ⟨body, ?_, fun n tail hn => ?_⟩
  · rw [hchars]
    refine Reads.group (d := .paren) hread fun hhead => ?_
    rw [List.head?_append] at hhead
    rcases Option.or_eq_some_iff.mp hhead with hhead | ⟨-, hhead⟩
    · exact htext.start hhead
    · exact absurd (Option.some.inj hhead) (by decide)
  · obtain ⟨forms, trailing, hforms⟩ := hleaves n (nesting_le_of_group hn)
    exact Leaves.arguments hforms tail

/-- Whether a text spells a call, a method or a question mark behind an expression. -/
structure SpellsSuffix (text : String) : Prop where
  spells : ∀ rest, ∃ t ts, Reads text.toList rest (t :: ts) ∧
    (∀ braces more, EndsAtom braces (t :: more)) ∧ ∀ n tail, nesting (t :: ts) ≤ n + 1 →
      Leaves (trailingOne (rulesUpTo n) .other) (t :: (ts ++ tail)) tail (some ())
  ends : ∀ rest, EndsWord (text.toList ++ rest)

/-- Arguments in parentheses are spelled behind an expression, which they make a call. -/
theorem SpellsArguments.suffix {text : String} (htext : SpellsArguments text) :
    SpellsSuffix ("(" ++ text ++ ")") := by
  refine ⟨fun rest => ?_, fun rest => ?_⟩
  · obtain ⟨body, hread, hleaves⟩ := htext.exists_arguments rest
    refine ⟨_, _, hread, fun braces more => .inr ⟨body, more, rfl⟩, fun n tail hn => ?_⟩
    exact Leaves.trailingOne_call .other (hleaves n tail hn)
  · rw [String.append_assoc, String.toList_append, List.append_assoc]
    exact .cons (by decide) _

/-- A question mark is spelled behind an expression, whatever follows it. -/
theorem spellsSuffix_question : SpellsSuffix "?" := by
  refine ⟨fun rest => ?_, fun rest => .cons (by decide) rest⟩
  have hread := Reads.separator (by decide : '?' ∈ Lexer.separators) rest
  refine ⟨_, _, hread, fun braces more => .inl (.punct (by decide) braces _ more), ?_⟩
  exact fun n tail _ => Leaves.trailingOne_question (by decide) _ tail

/-- A method with its arguments is spelled behind an expression. -/
theorem SpellsArguments.method {text : String} (htext : SpellsArguments text) {name : String}
    (hname : IsWord name ∧ name ∉ keywords) :
    SpellsSuffix ("." ++ name ++ "(" ++ text ++ ")") := by
  have hchars : ("." ++ name ++ "(" ++ text ++ ")").toList =
      ['.'] ++ (name.toList ++ ("(" ++ text ++ ")").toList) := by simp
  refine ⟨fun rest => ?_, fun rest => by rw [hchars]; exact .cons (by decide) _⟩
  obtain ⟨body, hread, hleaves⟩ := htext.exists_arguments rest
  have hends : EndsWord (("(" ++ text ++ ")").toList ++ rest) := htext.suffix.ends rest
  have hdot := Reads.separator (by decide : '.' ∈ Lexer.separators)
    (name.toList ++ ("(" ++ text ++ ")").toList ++ rest)
  rw [hchars]
  refine ⟨_, _, hdot.append ((Reads.word hname.1 hends).append hread),
    fun braces more => .inl (.punct (by decide) braces _ more), fun n tail hn => ?_⟩
  have hsize := (nesting_le_of_append [_, .ident name] [.group .paren body] hn).2
  exact Leaves.trailingOne_access (by decide)
    (Leaves.memberAccess_call hname.2 (hleaves n tail hsize))

/-- A method with a type and its arguments is spelled behind an expression. -/
theorem SpellsArguments.genericMethod {text : String} (htext : SpellsArguments text)
    {name typeText : String} (hname : IsWord name ∧ name ∉ keywords) {type : Ty}
    (htype : SpellsType typeText type) :
    SpellsSuffix ("." ++ name ++ "::<" ++ typeText ++ ">(" ++ text ++ ")") := by
  have hchars : ("." ++ name ++ "::<" ++ typeText ++ ">(" ++ text ++ ")").toList =
      ['.'] ++ (name.toList ++ (("::<" ++ typeText ++ ">").toList ++
        ("(" ++ text ++ ")").toList)) := by simp
  refine ⟨fun rest => ?_, fun rest => by rw [hchars]; exact .cons (by decide) _⟩
  obtain ⟨body, hread, hleaves⟩ := htext.exists_arguments rest
  obtain ⟨joint, ts, hfish, hargs⟩ := htype.exists_angledArgs (("(" ++ text ++ ")").toList ++ rest)
  have hends : EndsWord (("::<" ++ typeText ++ ">").toList ++ ("(" ++ text ++ ")").toList ++
      rest) := by
    rw [String.append_assoc, String.toList_append, List.append_assoc, List.append_assoc]
    exact .cons (by decide) _
  have hdot := Reads.separator (by decide : '.' ∈ Lexer.separators)
    (name.toList ++ (("::<" ++ typeText ++ ">").toList ++ ("(" ++ text ++ ")").toList) ++ rest)
  rw [hchars]
  refine ⟨_, _, hdot.append ((Reads.word hname.1 hends).append (hfish.append hread)),
    fun braces more => .inl (.punct (by decide) braces _ more), fun n tail hn => ?_⟩
  obtain ⟨hfront, hback⟩ := nesting_le_of_append
    (.punct ':' true :: .punct ':' true :: .punct '<' joint :: ts) [.group .paren body]
    (nesting_le_of_append [_, .ident name] _ hn).2
  have hsize : nesting ts ≤ n := by
    have hpos := size_pos (.punct '<' joint)
    rw [nesting_cons, nesting_cons, nesting_cons] at hfront
    omega
  show Leaves _ (_ :: .ident name :: .punct ':' true :: .punct ':' true :: .punct '<' joint ::
    (ts ++ [.group .paren body] ++ tail)) tail _
  rw [List.append_assoc ts]
  exact Leaves.trailingOne_access (by decide) (Leaves.memberAccess_turbofish hname.2
    (hargs n (.group .paren body :: tail) hsize) (hleaves n tail hback))

/-! ## Atoms with suffixes -/

/-- What is spelled behind an expression is read one after the other. -/
theorem exists_suffixes {suffixes : List String} (hsuffixes : ∀ text ∈ suffixes, SpellsSuffix text)
    (hrest : EndsWord rest) :
    EndsWord (suffixes.flatMap String.toList ++ rest) ∧
      ∃ ts, Reads (suffixes.flatMap String.toList) rest ts ∧ ∀ n braces tail, nesting ts ≤ n + 1 →
        EndsOperand braces tail → EndsAtom braces (ts ++ tail) ∧
          ∃ steps, steps.length ≤ ts.length ∧
            Steps (trailingOne (rulesUpTo n) .other) (ts ++ tail) tail steps := by
  induction suffixes with
  | nil =>
    refine ⟨hrest, [], Reads.nil rest, fun n braces tail _ htail => ⟨.inl ?_, [], Nat.le_refl 0,
      .nil (Leaves.trailingOne_none htail .other)⟩⟩
    intro t ht
    refine (htail t ht).imp_left ?_
    rintro ⟨c, hc, joint, rfl⟩
    exact ⟨c, List.mem_append_left ['.', '?'] hc, joint, rfl⟩
  | cons text suffixes ih =>
    obtain ⟨htext, hothers⟩ := List.forall_mem_cons.mp hsuffixes
    obtain ⟨hends, more, hmore, hsteps⟩ := ih hothers
    obtain ⟨t, ts, hread, ht, hleaves⟩ :=
      htext.spells (suffixes.flatMap String.toList ++ rest)
    rw [List.flatMap_cons, List.append_assoc]
    refine ⟨htext.ends _, _, hread.append hmore, fun n braces tail hn htail => ?_⟩
    obtain ⟨hfront, hback⟩ := nesting_le_of_append (t :: ts) more hn
    obtain ⟨-, steps, hlength, hmoreSteps⟩ := hsteps n braces tail hback htail
    refine ⟨ht braces _, () :: steps, ?_, ?_⟩
    · simp
      omega
    · rw [List.append_assoc]
      exact .cons (hleaves n (more ++ tail) hfront) hmoreSteps

/-- An atom and what is spelled behind it are read as an operand, where an expression may begin. -/
theorem SpellsAtom.exists_operand {text : String} (htext : SpellsAtom text) {suffixes : List String}
    (hsuffixes : ∀ text ∈ suffixes, SpellsSuffix text) {whole : String}
    (hwhole : whole.toList = text.toList ++ suffixes.flatMap String.toList)
    (hrest : EndsWord rest) :
    ∃ t ts, Reads whole.toList rest (t :: ts) ∧ (∀ more, atExprStart (t :: (ts ++ more))) ∧
      ∀ n braces tail, nesting (t :: ts) ≤ n + 1 → EndsOperand braces tail →
        Leaves (rulesUpTo n (.operand braces)) (t :: (ts ++ tail)) tail .other := by
  obtain ⟨hends, more, hmore, hsteps⟩ := exists_suffixes hsuffixes hrest
  obtain ⟨t, ts, hread, hplain, hstart, hleaves⟩ := htext.spells _ hends
  rw [hwhole]
  refine ⟨_, _, hread.append hmore, fun after => ?_, fun n braces tail hn htail =>
    leaves_operand hn fun m hm => ?_⟩
  · have hall := hstart (more ++ after)
    rwa [← List.append_assoc] at hall
  obtain ⟨hfront, hback⟩ := nesting_le_of_append (t :: ts) more hm
  have hsize : nesting more ≤ m + 1 := by
    have hpos := size_pos t
    have hall : nesting (t :: (ts ++ more)) ≤ m + 2 := hm
    rw [nesting_cons] at hall
    exact (nesting_le_of_append ts more (by omega)).2
  obtain ⟨hatom, steps, hlength, hsteps⟩ := hsteps m braces tail hsize htail
  show Leaves _ (t :: (ts ++ more ++ tail)) tail _
  rw [List.append_assoc]
  exact Leaves.readOperand_atom (hplain _) (hleaves m braces _ hfront hatom)
    (Leaves.trailing hsteps (by simp; omega))

/-- An atom and what is spelled behind it spell an operand. -/
theorem SpellsAtom.operand {text : String} (htext : SpellsAtom text) {suffixes : List String}
    (hsuffixes : ∀ text ∈ suffixes, SpellsSuffix text) {whole : String}
    (hwhole : whole.toList = text.toList ++ suffixes.flatMap String.toList) :
    SpellsOperand whole := by
  refine ⟨fun rest hrest => ?_, fun hhead => htext.start ?_⟩
  · obtain ⟨t, ts, hread, -, hleaves⟩ := htext.exists_operand hsuffixes hwhole hrest
    exact ⟨t, ts, hread, hleaves⟩
  · rw [hwhole] at hhead
    cases hchars : text.toList with
    | nil => exact absurd hchars htext.ne_nil
    | cons c cs =>
      rw [hchars] at hhead
      exact hhead

end ServiceDispatch.Grammar
