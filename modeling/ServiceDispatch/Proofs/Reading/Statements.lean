import ServiceDispatch.Grammar.Source
import ServiceDispatch.Proofs.Reading.Blocks
import ServiceDispatch.Proofs.Reading.ExprSpelling

/-!
# Reading statements

Bindings, returns and alternatives are read as statements, and lines that spell statements as the
inside of a block.
-/

namespace ServiceDispatch.Grammar

open CodeBuffer (IsBalanced Step written)
open ServiceDispatch.Lexer (EndsWord IsWord Reads memberTokens)

variable {ts rest tail : List Token} {t : Token} {rules : Rules}

/-! ## Patterns -/

/-- Whether a pattern ends here: its group does, or a type or a value follows. -/
def EndsPattern (tail : List Token) : Prop :=
  tail = [] ∨ ∃ c ∈ [':', '='], ∃ ts, tail = .punct c false :: ts

/-- A type or a value may follow a pattern, behind a colon or an equals sign. -/
theorem EndsPattern.punct {c : Char} (hc : c ∈ [':', '=']) (ts : List Token) :
    EndsPattern (.punct c false :: ts) := .inr ⟨c, hc, ts, rfl⟩

/-- What is not ahead where a pattern ends: none of the operators that go on with a pattern, and no
group. -/
theorem EndsPattern.notAhead (htail : EndsPattern tail) :
    (∀ op ∈ ["::", "!", "..", "@", "<", "|"], atOperator op tail = false) ∧
      atGroup .paren tail = false ∧ atGroup .brace tail = false := by
  rcases htail with rfl | ⟨c, hc, ts, rfl⟩
  · exact ⟨by decide, rfl, rfl⟩
  · refine ⟨fun op hop => ?_, rfl, rfl⟩
    simp only [List.mem_cons, List.not_mem_nil, or_false] at hc hop
    rcases hc with rfl | rfl <;> rcases hop with rfl | rfl | rfl | rfl | rfl | rfl <;> rfl

namespace Leaves

/-- A name is read as a pattern, with or without `mut` before it. -/
theorem readPattern_name {name : String} (hname : name ∉ keywords) (mutable : Bool)
    (htail : EndsPattern tail) :
    Leaves (readPattern rules) ((if mutable then [.ident "mut"] else []) ++ .ident name :: tail)
      tail .other := by
  have hword {w : String} (hw : w ∈ keywords) := atWord_eq_false_of_name hname hw tail
  have hat : atName (.ident name :: tail) = true := by simpa [atName] using hname
  obtain ⟨hoperator, hparen, hbrace⟩ := htail.notAhead
  have hnamed : Leaves (do
      if !(← word? "self") then Functor.discard Grammar.name
      if ← operator? "@" then Functor.discard rules.pattern) (.ident name :: tail) tail () :=
    bind (word?_none (hword (by decide))) (bind (discard (Leaves.name hname _))
      (bind (operator?_none (hoperator "@" (by decide))) (pure () _)))
  have hbinding : Leaves (bindingPattern rules)
      ((if mutable then [.ident "mut"] else []) ++ .ident name :: tail) tail () := by
    cases mutable with
    | true => exact bind (discard (word?_none rfl)) (bind (discard (word?_some "mut" _)) hnamed)
    | false =>
      exact bind (discard (word?_none (hword (by decide))))
        (bind (discard (word?_none (hword (by decide)))) hnamed)
  unfold readPattern
  refine bind (ahead _) ?_
  cases mutable with
  | true => exact bind hbinding (pure _ _)
  | false =>
    have hpath : atPathPattern (.ident name :: tail) = false := by
      simp [atPathPattern, hoperator, hparen, hbrace, hword (by decide : "Self" ∈ keywords),
        hword (by decide : "super" ∈ keywords), hword (by decide : "crate" ∈ keywords)]
      simp [atOperator, atOperatorChars]
    have hliteral := (BeginsType.word (.inr hname)).atValue_eq_false tail
    rw [Bool.or_eq_false_iff] at hliteral
    simp only [Bool.false_eq_true, if_false, List.nil_append] at hbinding ⊢
    rw [hpath, hword (by decide : "_" ∈ keywords), hword (by decide : "box" ∈ keywords),
      hliteral.1, hword (by decide : "const" ∈ keywords), hat, Bool.or_true,
      if_neg Bool.false_ne_true, if_neg Bool.false_ne_true, if_neg Bool.false_ne_true, if_neg (by
      simp [atOperator, atOperatorChars]), if_pos rfl]
    exact bind hbinding (pure _ _)

/-- A pattern without alternatives is read as it is, where no bar stands in front of it or behind
it. -/
theorem alternatives {form : PatternForm} (hbar : atOperator "|" ts = false)
    (hpattern : Leaves rules.pattern ts tail form) (htail : EndsPattern tail) :
    Leaves (alternatives rules) ts tail form := by
  have hstop : atBar tail = false := by
    rw [atBar, htail.notAhead.1 "|" (by decide), Bool.false_and, Bool.false_and]
  exact bind (operator?_none hbar) (bind hpattern
    (bind (repeatWhile (.nil hstop) (Nat.zero_le _)) (pure _ tail)))

/-- A path from another crate with patterns in parentheses behind it is read as a pattern. -/
theorem readPattern_path {first : String} {names : List String} {body : List Token}
    {forms : List PatternForm} {trailing : Bool} (hfirst : first ∉ keywords)
    (hnames : ∀ name ∈ names, name ∉ keywords)
    (hbody : Leaves (commaList (Grammar.alternatives rules)) body [] (forms, trailing))
    (ts : List Token) :
    Leaves (readPattern rules)
      (rootTokens true ++ .ident first :: (memberTokens names ++ .group .paren body :: ts)) ts
      .other := by
  have hlast : ∀ name ∉ keywords, Leaves (segment (Grammar.genericArg rules) true)
      (.ident name :: .group .paren body :: ts) (.group .paren body :: ts) (.mk name .none) :=
    fun name hname => segment_plain (.inr hname) rfl rfl
  have hsegments : Leaves (Grammar.segments (Grammar.genericArg rules) true)
      (rootTokens true ++ .ident first :: (memberTokens names ++ .group .paren body :: ts))
      (.group .paren body :: ts) (true, Segment.ofNames .none (first :: names)) :=
    segments (.inr hfirst) hnames (fun h => absurd (h ▸ by decide) hfirst) hlast rfl
  have hform : Leaves (pathForm rules true)
      (rootTokens true ++ .ident first :: (memberTokens names ++ .group .paren body :: ts))
      (.group .paren body :: ts) (.path true (Segment.ofNames .none (first :: names))) :=
    bind (peek_false rfl) (bind hsegments (pure _ _))
  have hgroup : Leaves (Functor.discard (Grammar.group .paren
      (commaList (Grammar.alternatives rules)))) (.group .paren body :: ts) ts () :=
    discard (group hbody ts)
  exact bind (ahead _) (bind hform (bind (ahead _) (bind hgroup (pure _ ts))))

/-! ## Statements -/

/-- Reading ahead without success moves nothing, and gives nothing. -/
theorem following_none {α : Type} {p : Reader α} (hp : Refuses p ts) :
    Leaves (following p) ts ts none := by
  intro written found
  refine ⟨written, found, ?_⟩
  rw [following, hp written found]
  rfl

/-- Where a keyword is ahead that begins no path, no invocation is. -/
theorem statementInvocation_none {w : String} (hw : w ∈ ["let", "if", "return"]) :
    Leaves statementInvocation (.ident w :: ts) (.ident w :: ts) .none := by
  have hrefuses : Refuses plainPath (.ident w :: ts) := by
    simp only [List.mem_cons, List.not_mem_nil, or_false] at hw
    rcases hw with rfl | rfl | rfl <;> exact fun _ _ => rfl
  exact bind (following_none hrefuses) (pure _ _)

/-- A binding is a statement: its word is neither an item nor an invocation. -/
theorem statement_let (hbinding : Leaves (localBinding rules) (.ident "let" :: ts) tail ()) :
    Leaves (statement rules) (.ident "let" :: ts) tail () :=
  get_bind fun _ _ => bind (discard (outerAttributes_nil rfl))
    (bind (statementInvocation_none (by decide)) (bind (ahead _) hbinding))

/-- An alternative or a return is a statement, as its word begins no item. -/
theorem statement_expr {w : String} (hw : w ∈ ["if", "return"])
    (hexpr : Leaves (exprStatement rules) (.ident w :: ts) tail ()) :
    Leaves (statement rules) (.ident w :: ts) tail () := by
  refine get_bind fun _ _ => bind (discard (outerAttributes_nil rfl)) ?_
  refine bind (statementInvocation_none (List.mem_cons_of_mem _ hw)) (bind (ahead _) ?_)
  simp only [List.mem_cons, List.not_mem_nil, or_false] at hw
  rcases hw with rfl | rfl <;> exact hexpr

/-- A name, perhaps a type, and a value are bound. -/
theorem localBinding {pattern : PatternForm} {form : ExprForm} {more : List Token}
    {joint joint' : Bool} (hpattern : Leaves rules.pattern ts rest pattern)
    (htype : rest = .punct '=' joint :: more ∨ ∃ own type, rest = .punct ':' false :: own ∧
      Leaves rules.type own (.punct '=' joint :: more) type)
    (hvalue : Leaves rules.expr more (.punct ';' joint' :: tail) form) :
    Leaves (localBinding rules) (.ident "let" :: ts) tail () := by
  have hequals : Leaves (operator? "=") (.punct '=' joint :: more) more true :=
    operator?_some (atOperator_singleton rfl (by decide) joint more)
      (operator_singleton rfl (by decide) joint more)
  have hinit : Leaves (initializer rules) (.punct '=' joint :: more) (.punct ';' joint' :: tail)
      () := by
    refine bind hequals ?_
    rw [if_pos rfl]
    refine captured_bind hvalue fun value => bind (write value _) (bind (peek_false rfl) ?_)
    rw [Bool.and_false, if_neg Bool.false_ne_true]
    exact pure _ _
  have hend : Leaves (Grammar.operator ";") (.punct ';' joint' :: tail) tail () :=
    operator_singleton rfl (by decide) joint' tail
  unfold Grammar.localBinding
  refine bind (word "let" ts) (bind (discard hpattern) ?_)
  rcases htype with rfl | ⟨own, type, rfl, htype⟩
  · exact bind (operator?_none rfl) (bind hinit hend)
  · have hcolon : Leaves (operator? ":") (.punct ':' false :: own) own true :=
      operator?_some rfl (operator_singleton rfl (by decide) false own)
    exact bind hcolon (bind (discard htype) (bind hinit hend))

/-- A name is bound, with or without `mut` before it and a type behind it. -/
theorem localBinding_name {n : Nat} {name : String} (hname : name ∉ keywords) (mutable : Bool)
    {own more : List Token} {joint : Bool} {form : ExprForm}
    (htype : own = [] ∨ ∃ ts type, own = .punct ':' false :: ts ∧
      Leaves (rulesUpTo (n + 1)).type (ts ++ .punct '=' false :: more) (.punct '=' false :: more)
        type)
    (hvalue : Leaves (rulesUpTo (n + 1)).expr more (.punct ';' joint :: tail) form) :
    Leaves (Grammar.localBinding (rulesUpTo (n + 1))) (.ident "let" ::
      ((if mutable then [.ident "mut"] else []) ++ .ident name ::
        (own ++ .punct '=' false :: more))) tail () := by
  rcases htype with rfl | ⟨ts, type, rfl, htype⟩
  · exact localBinding (readPattern_name hname mutable (.punct (by decide) _)) (.inl rfl) hvalue
  · exact localBinding (readPattern_name hname mutable (.punct (by decide) _))
      (.inr ⟨_, type, rfl, htype⟩) hvalue

/-- A condition and a block are an alternative, unless another one or something else follows. -/
theorem exprStatement_if {form : ExprForm} {n : Nat} {body : List Token}
    (hcondition : Leaves (rulesUpTo n).condition ts (.group .brace body :: tail) form)
    (hblock : Leaves (rulesUpTo n .statements) body [] ())
    (htail : atWord "else" tail = false ∧ atDot tail = false ∧ atOperator "?" tail = false ∧
      atOperator ";" tail = false) :
    Leaves (exprStatement (rulesUpTo (n + 1))) (.ident "if" :: ts) tail () := by
  obtain ⟨helse, hdot, hquestion, hsemicolon⟩ := htail
  have hchain : Leaves (ifChain (rulesUpTo n) ((.ident "if" :: ts).length + 2)) (.ident "if" :: ts)
      tail () :=
    bind (word "if" ts) (bind (bind (discard hcondition) (group hblock tail))
      (bind (word?_none helse) (pure () tail)))
  have hform : Leaves (rulesUpTo (n + 1) .statementExpr) (.ident "if" :: ts) tail .block := by
    show Leaves (readStatementExpr (rulesUpTo n)) _ _ _
    unfold readStatementExpr
    refine bind (discard (outerAttributes_nil rfl)) (bind (ahead _) ?_)
    rw [if_pos (by rfl)]
    refine bind (bind (ahead _) (bind hchain (pure _ tail))) ?_
    have hnothing : (atDot tail || atOperator "?" tail) = false := by
      rw [hdot, hquestion, Bool.or_self]
    exact bind (peek_false hnothing) (pure _ tail)
  exact bind hform (bind (operator?_none hsemicolon) (require rfl tail))

/-- The next statement is read where no semicolon is ahead. -/
theorem nextStatement_some (hsemicolon : atOperator ";" (t :: ts) = false)
    (hstatement : Leaves (statement rules) (t :: ts) tail ()) :
    Leaves (nextStatement rules) (t :: ts) tail (some ()) :=
  bind (discard (repeatWhile (.nil hsemicolon) (Nat.zero_le _)))
    (bind (peek_false rfl) (bind hstatement (pure _ tail)))

/-- There is no statement at the end of a group. -/
theorem nextStatement_none : Leaves (nextStatement rules) [] [] none :=
  bind (discard (repeatWhile (.nil rfl) (Nat.zero_le _))) (bind (peek_true rfl) (pure none []))

end Leaves

/-! ## Spelled statements -/

/-- Whether a statement begins with a token: a keyword, or the root of a path. -/
def OpensStatement (t : Token) : Prop :=
  (∃ w ∈ ["let", "if", "return"], t = .ident w) ∨ ∃ joint, t = .punct ':' joint

/-- Whether statements follow, or nothing. -/
def StatementsFollow (tail : List Token) : Prop := ∀ t, tail.head? = some t → OpensStatement t

/-- What is not ahead where statements follow: no alternative, nothing that goes on with an
expression, and no semicolon. -/
theorem StatementsFollow.notAhead (htail : StatementsFollow tail) :
    atWord "else" tail = false ∧ atDot tail = false ∧ atOperator "?" tail = false ∧
      atOperator ";" tail = false := by
  cases tail with
  | nil => exact ⟨rfl, rfl, rfl, rfl⟩
  | cons t ts =>
    rcases htail t rfl with ⟨w, hw, rfl⟩ | ⟨joint, rfl⟩
    · refine ⟨?_, rfl, rfl, rfl⟩
      simp only [List.mem_cons, List.not_mem_nil, or_false] at hw
      rcases hw with rfl | rfl | rfl <;> rfl
    · exact ⟨rfl, rfl, rfl, rfl⟩

/-- Whether steps spell a statement, at whatever depth they are written. -/
structure SpellsStatement (steps : List Step) : Prop where
  balanced : IsBalanced steps
  spells : ∀ depth rest, ∃ t ts, Reads (written depth steps).toList rest (t :: ts) ∧
    OpensStatement t ∧ ∀ n tail, nesting (t :: ts) ≤ n → StatementsFollow tail →
      Leaves (statement (rulesUpTo n)) (t :: (ts ++ tail)) tail ()

/-- Whether steps spell the inside of a block, at whatever depth they are written. -/
structure SpellsStatements (steps : List Step) : Prop where
  balanced : IsBalanced steps
  spells : ∀ depth rest, ∃ ts, Reads (written depth steps).toList rest ts ∧ StatementsFollow ts ∧
    ∀ n, nesting ts ≤ n → ∃ units, units.length ≤ ts.length ∧
      Steps (nextStatement (rulesUpTo n)) ts [] units

/-- There may be no statements in a block. -/
theorem spellsStatements_nil : SpellsStatements [] :=
  ⟨CodeBuffer.isBalanced_nil, fun _ rest => ⟨[], Reads.nil rest, fun _ h => (nomatch h),
    fun _ _ => ⟨[], Nat.le_refl 0, .nil Leaves.nextStatement_none⟩⟩⟩

/-- A statement before others is spelled with them, since they may follow it. -/
theorem SpellsStatement.append {own more : List Step} (hown : SpellsStatement own)
    (hmore : SpellsStatements more) : SpellsStatements (own ++ more) := by
  refine ⟨hown.balanced.append hmore.balanced, fun depth rest => ?_⟩
  obtain ⟨ts', hread', hfollow, hsteps⟩ := hmore.spells depth rest
  obtain ⟨t, ts, hread, ht, hleaves⟩ := hown.spells depth ((written depth more).toList ++ rest)
  rw [CodeBuffer.written_append, hown.balanced, String.toList_append]
  refine ⟨_, hread.append hread', fun t' ht' => Option.some.inj ht' ▸ ht, fun n hn => ?_⟩
  obtain ⟨hfront, hback⟩ := nesting_le_of_append (t :: ts) ts' hn
  obtain ⟨units, hlength, hunits⟩ := hsteps n hback
  have hsemicolon : atOperator ";" (t :: (ts ++ ts')) = false := by
    have hfollow : StatementsFollow (t :: (ts ++ ts')) := fun t' ht' => Option.some.inj ht' ▸ ht
    exact hfollow.notAhead.2.2.2
  refine ⟨() :: units, ?_, .cons (Leaves.nextStatement_some hsemicolon
    (hleaves n ts' hfront hfollow)) hunits⟩
  simp
  omega

/-- The inside of a block is read as statements, of which there are no more than tokens. -/
theorem leaves_statements {n : Nat} {units : List Unit} (hlength : units.length ≤ ts.length)
    (hunits : Steps (nextStatement (rulesUpTo n)) ts [] units) :
    Leaves (rulesUpTo (n + 1) .statements) ts [] () :=
  Leaves.discard (Leaves.repeatStep hunits hlength)

/-! ## Bindings -/

/-- Whether a text spells the type of a binding, or nothing. -/
def SpellsAscription (text : String) : Prop :=
  ∀ rest, EndsWord (text.toList ++ ' ' :: rest) ∧ ∃ ts, Reads text.toList (' ' :: rest) ts ∧
    ∀ n joint more, nesting ts ≤ n → ts = [] ∨ ∃ own type, ts = .punct ':' false :: own ∧
      Leaves (typeAt true n) (own ++ .punct '=' joint :: more) (.punct '=' joint :: more) type

/-- The type of a binding may be missing, and its text with it. -/
theorem spellsAscription_none : SpellsAscription "" :=
  fun rest => ⟨.cons (by decide) rest, [], Reads.nil _, fun _ _ _ _ => .inl rfl⟩

/-- A type behind a colon is the type of a binding. -/
theorem spellsAscription_type {text : String} {type : Ty} (htype : SpellsPath text type) :
    SpellsAscription (": " ++ text) := by
  intro rest
  have hchars : (": " ++ text).toList = [':'] ++ ([' '] ++ text.toList) := by simp
  obtain ⟨t, ts, hread, -, hleaves⟩ := htype true (' ' :: rest) (.cons (by decide) rest)
  have hcolon := Reads.separator (by decide : ':' ∈ Lexer.separators)
    ([' '] ++ text.toList ++ ' ' :: rest)
  rw [hchars]
  refine ⟨.cons (by decide) _, _, hcolon.append ((Reads.space _).append hread), ?_⟩
  intro n joint more hn
  have hsize := (nesting_le_of_append [.punct ':' false] (t :: ts) hn).2
  refine .inr ⟨t :: ts, type, rfl, hleaves n _ hsize fun c hc joint' hhead => ?_⟩
  obtain ⟨rfl, -⟩ := Token.punct.inj (Option.some.inj hhead)
  exact absurd hc (by decide)

/-- The line of a binding is read as the tokens of its parts, from its end to its front. -/
theorem reads_let {name : String} {ascription value rest : List Char} {own tokens : List Token}
    (mutable : Bool) (hname : IsWord name)
    (hends : EndsWord (ascription ++ ' ' :: ('=' :: ' ' :: (value ++ [';']) ++ rest)))
    (hown : Reads ascription (' ' :: ('=' :: ' ' :: (value ++ [';']) ++ rest)) own)
    (hvalue : Reads value ([';'] ++ rest) tokens) :
    Reads ("let".toList ++ ([' '] ++ ((if mutable then "mut".toList ++ [' '] else []) ++
        (name.toList ++ (ascription ++ ([' '] ++ (['='] ++ ([' '] ++ (value ++ [';']))))))))) rest
      (.ident "let" :: ((if mutable then [.ident "mut"] else []) ++ .ident name ::
        (own ++ .punct '=' false :: (tokens ++ [.punct ';' (Lexer.atPunct rest)])))) := by
  have hend := hvalue.append (Reads.separator (by decide : ';' ∈ Lexer.separators) rest)
  have hequals : Reads ['='] ([' '] ++ (value ++ [';']) ++ rest) [.punct '=' false] :=
    Reads.separator (by decide) _
  have hinit := (Reads.space _).append (hequals.append ((Reads.space _).append hend))
  have hword : EndsWord (ascription ++ ([' '] ++ (['='] ++ ([' '] ++ (value ++ [';'])))) ++
      rest) := by
    rw [List.append_assoc]
    exact hends
  have hbound := (Reads.word hname hword).append (hown.append hinit)
  exact (Reads.word (by decide : IsWord "let") (.cons (by decide) _)).append
    ((Reads.space _).append ((Reads.mutWord mutable _).append hbound))

/-- A binding of a name to an operand spells a statement. Its parts nest no deeper than the whole
line. -/
theorem spellsStatement_let {name ascription value line : String} (mutable : Bool)
    (hname : IsWord name ∧ name ∉ keywords) (hascription : SpellsAscription ascription)
    (hvalue : SpellsOperand value)
    (hline : line.toList = "let".toList ++ ([' '] ++
      ((if mutable then "mut".toList ++ [' '] else []) ++ (name.toList ++ (ascription.toList ++
        ([' '] ++ (['='] ++ ([' '] ++ (value.toList ++ [';']))))))))) :
    SpellsStatement [.line line] := by
  have hne : line ≠ "" := by
    rintro rfl
    exact nomatch hline
  refine ⟨CodeBuffer.isBalanced_line line, fun depth rest => ?_⟩
  obtain ⟨v, vs, hread, hleaves⟩ := hvalue.spells ([';'] ++ '\n' :: rest) (.cons (by decide) _)
  obtain ⟨hends, own, hown, htype⟩ := hascription ('=' :: ' ' :: (value.toList ++ [';']) ++
    '\n' :: rest)
  have hall := reads_let mutable hname.1 hends hown hread
  rw [← hline] at hall
  refine ⟨_, _, Reads.line hne depth hall, .inl ⟨"let", by decide, rfl⟩, fun n tail hn _ => ?_⟩
  have hsize : nesting (own ++ .punct '=' false :: v :: (vs ++
      [.punct ';' (Lexer.atPunct ('\n' :: rest))])) ≤ n := by
    have hfront := (nesting_le_of_append [.ident "let"] _ hn).2
    have hmuts := (nesting_le_of_append (if mutable then [.ident "mut"] else []) _ hfront).2
    exact (nesting_le_of_append [.ident name] _ hmuts).2
  obtain ⟨hsizeOwn, hsizeInit⟩ := nesting_le_of_append own _ hsize
  have hsizeValue : nesting (v :: vs) ≤ n :=
    (nesting_le_of_append (v :: vs) _ (nesting_le_of_append [.punct '=' false] _ hsizeInit).2).1
  have hexpr : Leaves (rulesUpTo n).expr
      (v :: (vs ++ .punct ';' (Lexer.atPunct ('\n' :: rest)) :: tail))
      (.punct ';' (Lexer.atPunct ('\n' :: rest)) :: tail) .other :=
    leaves_expr hsizeValue (fun m hm => hleaves m true _ hm (.punct (by decide) true _ _))
      (.punct (by decide) true _ _)
  obtain ⟨m, rfl⟩ : ∃ m, n = m + 1 := by
    rw [nesting] at hsizeOwn
    exact ⟨n - 1, by omega⟩
  have hbinding := Leaves.localBinding_name hname.2 mutable (htype (m + 1) false _ hsizeOwn) hexpr
  simpa using Leaves.statement_let hbinding

end ServiceDispatch.Grammar
