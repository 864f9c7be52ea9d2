import ServiceDispatch.Proofs.Reading.Statements

/-!
# Reading branches

A block behind a condition is read as a statement, and so is a value that is returned. A value at
the end of a block is its last statement.
-/

namespace ServiceDispatch.Grammar

open CodeBuffer (IsBalanced Step block written)
open ServiceDispatch.Lexer (EndsWord IsWord Reads memberTokens)

variable {ts rest tail : List Token} {rules : Rules} {braces : Bool}

/-! ## Conditions -/

namespace Leaves

/-- No prefix operator begins with a word, so that a word begins an atom. -/
theorem noPrefix_word (w : String) (ts : List Token) : NoPrefix (.ident w :: ts) :=
  fun _ _ _ h => nomatch h

/-- A pattern and a value that it is compared with are an atom. -/
theorem atom_let {pattern : PatternForm} {form result : ExprForm} {joint : Bool} {more : List Token}
    (hpattern : Leaves (Grammar.alternatives rules) ts (.punct '=' joint :: more) pattern)
    (hvalue : Leaves (rules (.operand braces)) more tail form)
    (hclimb : Leaves (rules (.climb braces form .compare)) tail tail result) :
    Leaves (atom rules braces) (.ident "let" :: ts) tail .other := by
  have hequals : Leaves (Grammar.operator "=") (.punct '=' joint :: more) more () :=
    operator_singleton rfl (by decide) joint more
  have hcondition : Leaves (letCondition rules braces) (.ident "let" :: ts) tail () :=
    bind (word "let" ts) (bind (discard hpattern) (bind hequals (bind hvalue (discard hclimb))))
  exact bind (ahead _) (bind hcondition (pure _ tail))

/-- A path from another crate with a name in parentheses, and a value that it is compared with, are
a condition. -/
theorem condition_let {first name : String} {names : List String} {m : Nat} {body more : List Token}
    (hfirst : first ∉ keywords) (hnames : ∀ name ∈ names, name ∉ keywords) (hname : name ∉ keywords)
    (hvalue :
      Leaves (rulesUpTo (m + 2) (.operand false)) more (.group .brace body :: tail) .other) :
    Leaves (rulesUpTo (m + 4)).condition (.ident "let" :: (rootTokens true ++ .ident first ::
      (memberTokens names ++ .group .paren [.ident name] :: .punct '=' false :: more)))
      (.group .brace body :: tail) .other := by
  have hinner : Leaves (rulesUpTo (m + 1)).pattern [.ident name] [] .other :=
    readPattern_name hname false (.inl rfl)
  have hinners : Leaves (commaList (Grammar.alternatives (rulesUpTo (m + 1)))) [.ident name] []
      ([.other], false) :=
    separated (.last rfl (alternatives rfl hinner (.inl rfl)) rfl) (Nat.le_refl 1)
  have hpattern : Leaves (rulesUpTo (m + 2)).pattern
      (rootTokens true ++ .ident first :: (memberTokens names ++
        .group .paren [.ident name] :: .punct '=' false :: more))
      (.punct '=' false :: more) .other := readPattern_path hfirst hnames hinners _
  have hatom := atom_let (alternatives rfl hpattern (.punct (by decide) _)) hvalue
    (readClimb_none (.block _ body tail) _ _)
  have hoperand :
      Leaves (rulesUpTo (m + 3) (.operand false)) _ (.group .brace body :: tail) .other :=
    readOperand_atom (noPrefix_word _ _) hatom
      (trailing (.nil (trailingOne_none (.block _ body tail) .other)) (Nat.zero_le _))
  exact readExpr hoperand (readClimb_none (.block _ body tail) _ _)

/-- A returned value is an atom. Where its value begins an expression may begin. -/
theorem atom_return {form : ExprForm} (hstart : atExprStart ts = true)
    (hvalue : Leaves rules.expr ts tail form) :
    Leaves (atom rules braces) (.ident "return" :: ts) tail .other := by
  have hoptional : Leaves (optionalValue rules fun _ => true) ts tail () := by
    refine bind (peek_true ?_) (discard hvalue)
    rw [hstart]
    rfl
  have hjump : Leaves (jump rules braces) (.ident "return" :: ts) tail () :=
    bind (ahead _) (bind (discard (anyWord "return" ts)) hoptional)
  exact bind (ahead _) (bind hjump (pure _ tail))

end Leaves

/-- Whether a text spells the condition in front of a block. -/
def SpellsCondition (text : String) : Prop :=
  ∀ rest, ∃ ts, Reads text.toList (' ' :: rest) ts ∧ ∀ n body tail, nesting ts ≤ n →
    ∃ form, Leaves (rulesUpTo n).condition (ts ++ .group .brace body :: tail)
      (.group .brace body :: tail) form

/-- Two operands with `==` between them spell a condition. Neither of them takes the other one, as a
comparison binds less than what an operand ends with. -/
theorem SpellsOperand.equal {left right : String} (hleft : SpellsOperand left)
    (hright : SpellsOperand right) : SpellsCondition (left ++ " == " ++ right) := by
  intro rest
  have hchars : (left ++ " == " ++ right).toList =
      left.toList ++ ([' '] ++ (['='] ++ (['='] ++ ([' '] ++ right.toList)))) := by simp
  obtain ⟨t', ts', hread', hleaves'⟩ := hright.spells (' ' :: rest) (.cons (by decide) rest)
  have hlast : Reads ['='] ([' '] ++ right.toList ++ ' ' :: rest) [.punct '=' false] :=
    Reads.separator (by decide) _
  have hfirst : Reads ['='] (['='] ++ ([' '] ++ right.toList) ++ ' ' :: rest) [.punct '=' true] :=
    Reads.separator (by decide) _
  have hback : Reads ([' '] ++ (['='] ++ (['='] ++ ([' '] ++ right.toList)))) (' ' :: rest)
      (.punct '=' true :: .punct '=' false :: t' :: ts') :=
    (Reads.space _).append (hfirst.append (hlast.append ((Reads.space _).append hread')))
  obtain ⟨t, ts, hread, hleaves⟩ := hleft.spells
    ([' '] ++ (['='] ++ (['='] ++ ([' '] ++ right.toList))) ++ ' ' :: rest) (.cons (by decide) _)
  rw [hchars]
  refine ⟨_, hread.append hback, fun n body tail hn => ⟨.comparison, ?_⟩⟩
  obtain ⟨hsizeLeft, hsizeBack⟩ := nesting_le_of_append (t :: ts) _ hn
  have hsizeRight : nesting (t' :: ts') + 16 ≤ n := by
    have hpuncts : nesting (.punct '=' true :: .punct '=' false :: t' :: ts') =
        8 + (8 + nesting (t' :: ts')) := by
      rw [nesting_cons, nesting_cons]
      rfl
    omega
  obtain ⟨m, rfl⟩ : ∃ m, n = m + 2 := ⟨n - 2, by omega⟩
  have hoperand := hleaves (m + 1) false
    (.punct '=' true :: .punct '=' false :: t' :: (ts' ++ .group .brace body :: tail)) hsizeLeft
    (.punct (by decide) false true _)
  have hvalue := hleaves' m false (.group .brace body :: tail) (by omega) (.block _ body tail)
  have hclimb : Leaves (rulesUpTo (m + 1) (.climb false .other .lowest))
      (.punct '=' true :: .punct '=' false :: t' :: (ts' ++ .group .brace body :: tail))
      (.group .brace body :: tail) .comparison :=
    Leaves.readClimb_equal (by decide) hvalue (.block _ body tail)
  have hexpr : Leaves (rulesUpTo (m + 2)).condition
      (t :: (ts ++ .punct '=' true :: .punct '=' false :: t' ::
        (ts' ++ .group .brace body :: tail)))
      (.group .brace body :: tail) .comparison := Leaves.bind hoperand hclimb
  simpa using hexpr

/-- A path from another crate with a name in parentheses, and a value that it is compared with,
spell a condition. The text is read from its end to its front. -/
theorem spellsCondition_let {first name path value text : String} {names : List String}
    (hfirst : IsWord first ∧ first ∉ keywords)
    (hnames : ∀ name ∈ names, IsWord name ∧ name ∉ keywords)
    (hpath : path.toList = [':', ':'] ++
      (first.toList ++ names.flatMap fun name => ':' :: ':' :: name.toList))
    (hname : IsWord name ∧ name ∉ keywords) (hvalue : SpellsOperand value)
    (htext : text.toList = "let".toList ++ ([' '] ++ (path.toList ++
      ('(' :: (name.toList ++ [')']) ++ ([' '] ++ (['='] ++ ([' '] ++ value.toList))))))) :
    SpellsCondition text := by
  intro rest
  obtain ⟨t, ts, hread, hleaves⟩ := hvalue.spells (' ' :: rest) (.cons (by decide) rest)
  have hequals : Reads ['='] ([' '] ++ value.toList ++ ' ' :: rest) [.punct '=' false] :=
    Reads.separator (by decide) _
  have hback := (Reads.space _).append (hequals.append ((Reads.space _).append hread))
  have hgroup : Reads ('(' :: (name.toList ++ [')']))
      ([' '] ++ (['='] ++ ([' '] ++ value.toList)) ++ ' ' :: rest)
      [.group .paren [.ident name]] := by
    refine Reads.group (d := .paren) (Reads.word hname.1 (.cons (by decide) _)) fun hhead => ?_
    obtain ⟨c, cs, hchars, hc⟩ := hname.1.exists_isIdentStart
    rw [hchars] at hhead
    obtain rfl := Option.some.inj hhead
    exact absurd hc (by decide)
  have hends : EndsWord ('(' :: (name.toList ++ [')']) ++
      ([' '] ++ (['='] ++ ([' '] ++ value.toList))) ++ ' ' :: rest) := .cons (by decide) _
  have hnamesRead := reads_names true hfirst.1 (fun name h => (hnames name h).1) hends
  rw [if_pos rfl, ← hpath] at hnamesRead
  have hall := (Reads.word (by decide : IsWord "let") (.cons (by decide) _)).append
    ((Reads.space _).append (hnamesRead.append (hgroup.append hback)))
  rw [htext]
  refine ⟨_, hall, fun n body tail hn => ⟨.other, ?_⟩⟩
  have hsize : nesting (t :: ts) + 8 ≤ n := by
    have hlet := (nesting_le_of_append [.ident "let"] _ hn).2
    have hpattern := (nesting_le_of_append (Leaves.rootTokens true ++ .ident first ::
      memberTokens names) _ hlet).2
    have hgroup := (nesting_le_of_append [.group .paren [.ident name]] _ hpattern).2
    have hequals : nesting (.punct '=' false :: t :: ts) = 8 + nesting (t :: ts) := nesting_cons _ _
    exact (Nat.add_comm _ _).le.trans (hequals.symm.le.trans hgroup)
  obtain ⟨m, rfl⟩ : ∃ m, n = m + 4 := by
    rw [nesting] at hsize
    exact ⟨n - 4, by omega⟩
  have hcondition := Leaves.condition_let hfirst.2 (fun name h => (hnames name h).2) hname.2
    (hleaves (m + 2) false _ (by omega) (.block _ body tail))
  simpa using hcondition

/-! ## Blocks behind conditions -/

/-- A block behind a condition spells a statement. The head of the block is written with the
condition in it, and the statements in the block are spelled by themselves. -/
theorem SpellsCondition.statement {text head : String} (htext : SpellsCondition text)
    (hhead : head.toList = "if".toList ++ ([' '] ++ text.toList)) {body : List Step}
    (hbody : SpellsStatements body) : SpellsStatement (block head body) := by
  refine ⟨hbody.balanced.block _, fun depth rest => ?_⟩
  obtain ⟨own, inner, hread, ⟨ts, rfl, hcondition⟩, hinner⟩ :=
    Lexer.exists_reads_block hbody.balanced depth rest
      (P := fun own => ∃ ts, own = .ident "if" :: ts ∧ ∀ n body tail, nesting ts ≤ n →
        ∃ form, Leaves (rulesUpTo n).condition (ts ++ .group .brace body :: tail)
          (.group .brace body :: tail) form)
      (fun rest => by
        obtain ⟨ts, hread, hleaves⟩ := htext rest
        rw [hhead]
        exact ⟨_, (Reads.word (by decide : IsWord "if") (.cons (by decide) _)).append
          ((Reads.space _).append hread), ts, rfl, hleaves⟩)
      (fun rest => hbody.spells (depth + 1) rest)
  refine ⟨_, _, hread, .inl ⟨"if", by decide, rfl⟩, fun n tail hn htail => ?_⟩
  have hsizes : nesting ts + 2 ≤ n ∧ nesting inner + 2 ≤ n := by
    have hall : nesting (.ident "if" :: (ts ++ [.group .brace inner])) ≤ n := hn
    rw [nesting, Token.sizeAll, sizeAll_append, Token.sizeAll, Token.size] at hall
    rw [nesting, nesting]
    omega
  obtain ⟨m, rfl⟩ : ∃ m, n = m + 2 := ⟨n - 2, by omega⟩
  obtain ⟨form, hform⟩ := hcondition (m + 1) inner tail (by omega)
  obtain ⟨units, hlength, hunits⟩ := hinner.2 m (by omega)
  have hstatement := Leaves.statement_expr (by decide)
    (Leaves.exprStatement_if hform (leaves_statements hlength hunits) htail.notAhead)
  simpa using hstatement

/-! ## Returned values -/

/-- A value that is returned is a statement up to the semicolon behind it. -/
theorem Leaves.exprStatement_return {n : Nat} {joint : Bool} {form : ExprForm}
    (hstart : atExprStart ts = true)
    (hvalue : Leaves (rulesUpTo n).expr ts (.punct ';' joint :: tail) form) :
    Leaves (exprStatement (rulesUpTo (n + 2))) (.ident "return" :: ts) tail () := by
  have hstops : Stops true (.punct ';' joint :: tail) := .punct (by decide) true joint tail
  have hatom : Leaves (atom (rulesUpTo n) true) (.ident "return" :: ts) (.punct ';' joint :: tail)
      .other := atom_return hstart hvalue
  have hoperand : Leaves (rulesUpTo (n + 1) (.operand true)) (.ident "return" :: ts)
      (.punct ';' joint :: tail) .other :=
    readOperand_atom (noPrefix_word "return" ts) hatom
      (trailing (.nil (trailingOne_none hstops.endsOperand .other)) (Nat.zero_le _))
  have hclimb : Leaves (rulesUpTo (n + 1) (.climb true .other .lowest))
      (.punct ';' joint :: tail) (.punct ';' joint :: tail) .other :=
    readClimb_none hstops .other .lowest
  have hform : Leaves (rulesUpTo (n + 2) .statementExpr) (.ident "return" :: ts)
      (.punct ';' joint :: tail) .other :=
    bind (discard (outerAttributes_nil rfl)) (bind (ahead _) (bind hoperand hclimb))
  exact bind hform (bind (operator?_some (atOperator_singleton rfl (by decide) joint tail)
    (operator_singleton rfl (by decide) joint tail)) (pure () tail))

/-- A returned value spells a statement. The value is an atom with what follows it, such as the
arguments of a call. -/
theorem SpellsAtom.return {text : String} (htext : SpellsAtom text) {suffixes : List String}
    (hsuffixes : ∀ text ∈ suffixes, SpellsSuffix text) {value line : String}
    (hvalue : value.toList = text.toList ++ suffixes.flatMap String.toList)
    (hline : line.toList = "return".toList ++ ([' '] ++ (value.toList ++ [';']))) :
    SpellsStatement [.line line] := by
  have hne : line ≠ "" := by
    rintro rfl
    exact nomatch hline
  refine ⟨CodeBuffer.isBalanced_line _, fun depth rest => ?_⟩
  have hends : EndsWord ([';'] ++ '\n' :: rest) := .cons (by decide) _
  obtain ⟨t, ts, hread, hstart, hleaves⟩ := htext.exists_operand hsuffixes hvalue hends
  have hend := hread.append (Reads.separator (by decide : ';' ∈ Lexer.separators) ('\n' :: rest))
  have hall := (Reads.word (by decide : IsWord "return") (.cons (by decide) _)).append
    ((Reads.space _).append hend)
  rw [← hline] at hall
  refine ⟨_, _, Reads.line hne depth hall, .inl ⟨"return", by decide, rfl⟩, fun n tail hn _ => ?_⟩
  have hsize : nesting (t :: ts) + 8 ≤ n := by
    have hreturn : 8 + nesting (t :: ts ++ [.punct ';' (Lexer.atPunct ('\n' :: rest))]) ≤ n :=
      (nesting_cons (.ident "return") _).symm.le.trans hn
    have hvalue := (nesting_le_of_append (t :: ts) [.punct ';' (Lexer.atPunct ('\n' :: rest))]
      (Nat.le_refl _)).1
    omega
  obtain ⟨m, rfl⟩ : ∃ m, n = m + 2 := ⟨n - 2, by omega⟩
  have hexpr : Leaves (rulesUpTo m).expr
      (t :: (ts ++ .punct ';' (Lexer.atPunct ('\n' :: rest)) :: tail))
      (.punct ';' (Lexer.atPunct ('\n' :: rest)) :: tail) .other :=
    leaves_expr (by omega : nesting (t :: ts) ≤ m)
      (fun k hk => hleaves k true _ hk (.punct (by decide) true _ _))
      (.punct (by decide) true _ _)
  have hstatement := Leaves.statement_expr (by decide)
    (Leaves.exprStatement_return (hstart _) hexpr)
  simpa using hstatement

/-! ## Values of blocks -/

namespace Leaves

/-- The tokens that a reader would leave are known without reading. -/
theorem following {α : Type} {p : Reader α} {a : α} (hp : Leaves p ts rest a) :
    Leaves (following p) ts ts (some rest) := by
  intro written found
  obtain ⟨written', found', hp⟩ := hp written found
  refine ⟨written, found, ?_⟩
  rw [Grammar.following, hp]
  rfl

/-- A path of names is read as one of plain names. -/
theorem plainPath (rooted : Bool) {first : String} (names : List String) (hfirst : first ∉ keywords)
    (hnames : ∀ name ∈ names, name ∉ keywords) (hend : atOperator "::" tail = false) :
    Leaves plainPath (rootTokens rooted ++ .ident first :: (memberTokens names ++ tail)) tail
      (rooted, first :: names) := by
  have hsegment {name : String} (hname : name ∉ keywords) (ts : List Token) :
      Leaves (do
        let ts ← Grammar.ahead
        Grammar.require (atName ts || atWord "super" ts || atWord "self" ts || atWord "Self" ts ||
          atWord "crate" ts)
        Grammar.anyWord) (.ident name :: ts) ts name := by
    refine bind (ahead _) (bind (require ?_ _) (anyWord name ts))
    simp [atName, hname]
  have hmembers : Repeats (atOperator "::") (do
      Grammar.operator "::"
      let ts ← Grammar.ahead
      Grammar.require (atName ts || atWord "super" ts || atWord "self" ts || atWord "Self" ts ||
        atWord "crate" ts)
      Grammar.anyWord) (memberTokens names ++ tail) tail names := by
    induction names with
    | nil => exact .nil hend
    | cons name names ih =>
      obtain ⟨hname, hothers⟩ := List.forall_mem_cons.mp hnames
      exact .cons rfl (bind (colons false _) (hsegment hname _)) (ih hothers)
  have hlength : names.length ≤ (memberTokens names ++ tail).length := by
    rw [List.length_append, memberTokens, List.length_flatMap]
    simp
    omega
  have hrooted : Leaves (operator? "::")
      (rootTokens rooted ++ .ident first :: (memberTokens names ++ tail))
      (.ident first :: (memberTokens names ++ tail)) rooted := by
    cases rooted with
    | true => exact operator?_some rfl (colons false _)
    | false => exact operator?_none (atOperator_eq_false rfl fun _ h => by cases h)
  exact bind hrooted (bind (hsegment hfirst _)
    (bind (repeatWhile hmembers hlength) (pure _ tail)))

/-- A path from another crate is the last statement of a block. -/
theorem statement_path {first : String} {names : List String} (hfirst : first ∉ keywords)
    (hnames : ∀ name ∈ names, name ∉ keywords) (n : Nat) :
    Leaves (statement (rulesUpTo (n + 3)))
      (rootTokens true ++ .ident first :: memberTokens names) [] () := by
  have hlast : ∀ name ∉ keywords, Leaves (segment (Grammar.genericArg (rulesUpTo (n + 1))) true)
      [.ident name] [] (.mk name .none) :=
    fun name hname => segment_plain (.inr hname) rfl rfl
  have hsegments : Leaves (Grammar.segments (Grammar.genericArg (rulesUpTo (n + 1))) true)
      (rootTokens true ++ .ident first :: memberTokens names) []
      (true, Segment.ofNames .none (first :: names)) := by
    have hall : Leaves (Grammar.segments (Grammar.genericArg (rulesUpTo (n + 1))) true)
        (rootTokens true ++ .ident first :: (memberTokens names ++ [])) []
        (true, Segment.ofNames .none (first :: names)) :=
      segments (.inr hfirst) hnames (fun h => absurd (h ▸ by decide) hfirst) hlast rfl
    rwa [List.append_nil] at hall
  have hhash : atOperator "#" (memberTokens names) = false := by
    cases names <;> rfl
  have hoperand : Leaves (rulesUpTo (n + 2) (.operand true))
      (rootTokens true ++ .ident first :: memberTokens names) [] .other := by
    refine readOperand_atom (fun c hc joint hhead => ?_)
      (atom_path (.inr hfirst) hhash hsegments rfl rfl)
      (trailing (.nil (trailingOne_none (.nil _ true) .other)) (Nat.zero_le _))
    obtain ⟨rfl, -⟩ := Token.punct.inj (Option.some.inj hhead)
    exact absurd hc (by decide)
  have hclimb : Leaves (rulesUpTo (n + 2) (.climb true .other .lowest)) [] [] .other :=
    readClimb_none (.nil _ true) .other .lowest
  have hform : Leaves (rulesUpTo (n + 3) .statementExpr)
      (rootTokens true ++ .ident first :: memberTokens names) [] .other :=
    bind (discard (outerAttributes_nil rfl)) (bind (ahead _) (bind hoperand hclimb))
  have hstatement : Leaves (exprStatement (rulesUpTo (n + 3)))
      (rootTokens true ++ .ident first :: memberTokens names) [] () :=
    bind hform (bind (operator?_none rfl) (bind (peek_true rfl) (require rfl [])))
  have hinvocation : Leaves statementInvocation
      (rootTokens true ++ .ident first :: memberTokens names)
      (rootTokens true ++ .ident first :: memberTokens names) .none := by
    have hpath : Leaves Grammar.plainPath (rootTokens true ++ .ident first :: memberTokens names) []
        (true, first :: names) := by
      have hend : atOperator "::" [] = false := rfl
      have hall := plainPath true names hfirst hnames hend
      rwa [List.append_nil] at hall
    exact bind (following hpath) (pure _ _)
  exact get_bind fun _ _ => bind (discard (outerAttributes_nil rfl))
    (bind hinvocation (bind (ahead _) hstatement))

end Leaves

/-- A path from another crate spells the inside of a block. -/
theorem spellsStatements_path (first : String) (names : List String) {path : String}
    (hfirst : IsWord first ∧ first ∉ keywords)
    (hnames : ∀ name ∈ names, IsWord name ∧ name ∉ keywords)
    (hpath : path.toList = [':', ':'] ++
      (first.toList ++ names.flatMap fun name => ':' :: ':' :: name.toList)) :
    SpellsStatements [.line path] := by
  have hne : path ≠ "" := by
    rintro rfl
    exact nomatch hpath
  refine ⟨CodeBuffer.isBalanced_line path, fun depth rest => ?_⟩
  have hread := reads_names true hfirst.1 (fun name h => (hnames name h).1)
    (.cons (by decide) rest : EndsWord ('\n' :: rest))
  rw [if_pos rfl, ← hpath] at hread
  refine ⟨_, Reads.line hne depth hread, fun t ht => .inr ⟨true, (Option.some.inj ht).symm⟩, ?_⟩
  intro n hn
  obtain ⟨m, rfl⟩ : ∃ m, n = m + 3 := by
    rw [nesting] at hn
    exact ⟨n - 3, by omega⟩
  have hstatement := Leaves.statement_path hfirst.2 (fun name h => (hnames name h).2) m
  exact ⟨[()], by simp [Leaves.rootTokens], .cons (Leaves.nextStatement_some rfl hstatement)
    (.nil Leaves.nextStatement_none)⟩

end ServiceDispatch.Grammar
