import ServiceDispatch.Grammar.Exprs
import ServiceDispatch.Proofs.Reading.Types

/-!
# Reading expressions

A path with calls, methods and question marks behind it is read as an operand, with or without
prefix operators before it. An operand is an expression where no operator follows it.
-/

namespace ServiceDispatch.Grammar

open ServiceDispatch.Lexer (memberTokens)

variable {ts rest tail : List Token} {t : Token} {rules : Rules} {braces : Bool}

/-! ## What stands behind -/

/-- Whether one of some punctuation characters is ahead or nothing; where a brace ends an expression
a block may be ahead, too. -/
def Follows (cs : List Char) (braces : Bool) (tail : List Token) : Prop :=
  ∀ t, tail.head? = some t →
    (∃ c ∈ cs, ∃ joint, t = .punct c joint) ∨ braces = false ∧ ∃ body, t = .group .brace body

/-- Whether an expression ends here. -/
abbrev Stops : Bool → List Token → Prop := Follows [',', ';']

/-- Whether an operand ends here: the expression ends, or an operator with an equals sign is
ahead. -/
abbrev EndsOperand : Bool → List Token → Prop := Follows [',', ';', '=']

/-- An expression ends with its group, where no token is left. -/
theorem Follows.nil (cs : List Char) (braces : Bool) : Follows cs braces [] := fun _ h => nomatch h

/-- A punctuation character ends what it may follow, with and without another one behind it. -/
theorem Follows.punct {cs : List Char} {c : Char} (hc : c ∈ cs) (braces joint : Bool)
    (ts : List Token) : Follows cs braces (.punct c joint :: ts) := by
  intro t ht
  obtain rfl := Option.some.inj ht
  exact .inl ⟨c, hc, joint, rfl⟩

/-- A block ends what stands before it where no struct may stand, as behind a condition. -/
theorem Follows.block (cs : List Char) (body ts : List Token) :
    Follows cs false (.group .brace body :: ts) := by
  intro t ht
  obtain rfl := Option.some.inj ht
  exact .inr ⟨rfl, body, rfl⟩

/-- Where an expression ends its last operand ends, too. -/
theorem Stops.endsOperand (htail : Stops braces tail) : EndsOperand braces tail := by
  intro t ht
  refine (htail t ht).imp_left ?_
  rintro ⟨c, hc, joint, rfl⟩
  exact ⟨c, List.mem_append_left ['='] hc, joint, rfl⟩

/-- What may stand where an expression ends: nothing, a comma or a semicolon, or a block where no
struct may stand. -/
theorem Stops.cases (htail : Stops braces tail) :
    tail = [] ∨ (∃ joint ts, tail = .punct ',' joint :: ts ∨ tail = .punct ';' joint :: ts) ∨
      braces = false ∧ ∃ body ts, tail = .group .brace body :: ts := by
  cases tail with
  | nil => exact .inl rfl
  | cons t ts =>
    right
    refine (htail t rfl).imp ?_ ?_
    · rintro ⟨c, hc, joint, rfl⟩
      simp only [List.mem_cons, List.not_mem_nil, or_false] at hc
      rcases hc with rfl | rfl
      · exact ⟨joint, ts, .inl rfl⟩
      · exact ⟨joint, ts, .inr rfl⟩
    · rintro ⟨hbraces, body, rfl⟩
      exact ⟨hbraces, body, ts, rfl⟩

/-- What may stand where an operand ends: what may end an expression, or an equals sign. -/
theorem Follows.operand_cases (htail : EndsOperand braces tail) :
    Stops braces tail ∨ ∃ joint ts, tail = .punct '=' joint :: ts := by
  cases tail with
  | nil => exact .inl (.nil _ _)
  | cons t ts =>
    rcases htail t rfl with ⟨c, hc, joint, rfl⟩ | ⟨rfl, body, rfl⟩
    · rcases List.mem_append.mp (show c ∈ [',', ';'] ++ ['='] from hc) with hc | hc
      · exact .inl (.punct hc braces joint ts)
      · obtain rfl := List.mem_singleton.mp hc
        exact .inr ⟨joint, ts, rfl⟩
    · exact .inl (.block _ body ts)

/-- No operator follows an expression that ends, neither a binary one nor that of an assignment, a
range or a cast. -/
theorem Stops.noOperator (htail : Stops braces tail) :
    binaryOperator? tail = none ∧ atAssign tail = false ∧ atOperator ".." tail = false ∧
      atWord "as" tail = false := by
  rcases htail.cases with rfl | ⟨joint, ts, rfl | rfl⟩ | ⟨-, body, ts, rfl⟩ <;>
    exact ⟨rfl, rfl, rfl, rfl⟩

/-- Where an expression ends the next operator is weaker than all others. -/
theorem Stops.strengthAhead (htail : Stops braces tail) : strengthAhead tail = .lowest := by
  obtain ⟨hbinary, hassign, hrange, hcast⟩ := htail.noOperator
  simp [Grammar.strengthAhead, hbinary, hassign, hrange, hcast]

namespace Leaves

/-- Where an expression ends no operator is taken. This does not depend on how strongly it would
have to bind. -/
theorem climbOnce_none (htail : Stops braces tail) (left : ExprForm) (base : Strength) :
    Leaves (climbOnce rules braces left base) tail tail none := by
  obtain ⟨hbinary, hassign, hrange, hcast⟩ := htail.noOperator
  unfold climbOnce
  split
  · exact pure none tail
  · refine bind (ahead tail) ?_
    simp only [hbinary, hassign, hrange, hcast, Bool.and_false, Bool.false_eq_true, if_false]
    exact pure none tail

/-- Where an expression ends an operand stands alone and is the whole expression. -/
theorem readClimb_none (htail : Stops braces tail) (left : ExprForm) (base : Strength) :
    Leaves (readClimb rules braces left base) tail tail left :=
  bind (ahead tail) (bind (climbOnce_none htail left base) (pure left tail))

/-- An operand is an expression where the expression ends, that is, where no operator is taken
behind it. -/
theorem readExpr {form : ExprForm} (hoperand : Leaves (rules (.operand braces)) ts tail form)
    (hclimb : Leaves (rules (.climb braces form .lowest)) tail tail form) :
    Leaves (readExpr rules braces) ts tail form :=
  bind hoperand hclimb

/-! ## Calls, methods and question marks -/

/-- Expressions with commas between them are the arguments of a call. -/
theorem arguments {body : List Token} {forms : List ExprForm} {trailing : Bool}
    (hbody : Leaves (commaList rules.expr) body [] (forms, trailing)) (ts : List Token) :
    Leaves (arguments rules) (.group .paren body :: ts) ts () :=
  discard (group hbody ts)

/-- Arguments behind an expression make it a call, whatever form it has. -/
theorem trailingOne_call {body : List Token} (atom : ExprForm)
    (hbody : Leaves (Grammar.arguments rules) (.group .paren body :: ts) ts ()) :
    Leaves (trailingOne rules atom) (.group .paren body :: ts) ts (some ()) := by
  unfold trailingOne
  refine bind (ahead _) ?_
  rw [if_pos (by rfl)]
  exact bind hbody (pure _ ts)

/-- A question mark stands behind an expression, unless this is a range. -/
theorem trailingOne_question {atom : ExprForm} (hatom : atom ≠ .range) (joint : Bool)
    (ts : List Token) : Leaves (trailingOne rules atom) (.punct '?' joint :: ts) ts (some ()) := by
  have hdot : (atDot (.punct '?' joint :: ts) && atom != .range) = false := rfl
  have hquestion : (atOperator "?" (.punct '?' joint :: ts) && atom != .range) = true := by
    rw [atOperator_singleton rfl (by decide), Bool.true_and, bne_iff_ne]
    exact hatom
  unfold trailingOne
  refine bind (ahead _) ?_
  rw [if_neg (by simp [atGroup]), hdot, if_neg Bool.false_ne_true, if_neg (by simp [atGroup]),
    hquestion, if_pos rfl]
  exact bind (operator_singleton rfl (by decide) joint ts) (pure _ ts)

/-- A member behind a single dot stands behind an expression. -/
theorem trailingOne_access {atom : ExprForm} (hatom : atom ≠ .range) {joint : Bool}
    {name : String}
    (haccess : Leaves (memberAccess rules) (.ident name :: ts) tail ()) :
    Leaves (trailingOne rules atom) (.punct '.' joint :: .ident name :: ts) tail (some ()) := by
  have hdots : atOperator ".." (.punct '.' joint :: .ident name :: ts) = false := by
    cases joint <;> rfl
  have hdot : (atDot (.punct '.' joint :: .ident name :: ts) && atom != .range) = true := by
    rw [atDot, atOperator_singleton rfl (by decide), hdots, Bool.not_false, Bool.true_and,
      Bool.true_and, bne_iff_ne]
    exact hatom
  have hmember : Leaves (access rules) (.punct '.' joint :: .ident name :: ts) tail () :=
    bind (operator_singleton rfl (by decide) joint _) (bind (ahead _) haccess)
  unfold trailingOne
  refine bind (ahead _) ?_
  rw [if_neg (by simp [atGroup]), hdot, if_pos rfl]
  exact bind hmember (pure _ tail)

/-- A name is read as that of a member, as it is no keyword. -/
theorem member_name {name : String} (hname : name ∉ keywords) (ts : List Token) :
    Leaves member (.ident name :: ts) ts true :=
  bind (ahead _) (bind (discard (Leaves.name hname ts)) (pure true ts))

/-- A name with arguments in parentheses is a method. Being no keyword it is not taken for a form of
its own. -/
theorem memberAccess_call {name : String} (hname : name ∉ keywords) {body : List Token}
    (hbody : Leaves (Grammar.arguments rules) (.group .paren body :: ts) ts ()) :
    Leaves (memberAccess rules) (.ident name :: .group .paren body :: ts) ts () := by
  have hawait : atWord "await" (.ident name :: .group .paren body :: ts) = false := by
    rw [atWord, beq_eq_false_iff_ne]
    rintro rfl
    exact hname (by decide)
  unfold memberAccess
  refine bind (word?_none hawait) ?_
  rw [if_neg Bool.false_ne_true]
  refine bind (member_name hname _) (bind (peek_false rfl) ?_)
  rw [Bool.and_false, if_neg Bool.false_ne_true]
  exact bind (peek_true rfl) hbody

/-- A name with generic arguments and arguments in parentheses is a method. -/
theorem memberAccess_turbofish {name : String} (hname : name ∉ keywords) {joint : Bool}
    {args : List TyArg} {trailing : Bool} {body : List Token}
    (hargs : Leaves (angledArgs (Grammar.genericArg rules))
      (.punct ':' true :: .punct ':' joint :: ts) (.group .paren body :: tail)
      (.angled true args trailing))
    (hbody : Leaves (Grammar.arguments rules) (.group .paren body :: tail) tail ()) :
    Leaves (memberAccess rules) (.ident name :: .punct ':' true :: .punct ':' joint :: ts) tail
      () := by
  have hawait : atWord "await" (.ident name :: .punct ':' true :: .punct ':' joint :: ts) =
      false := by
    rw [atWord, beq_eq_false_iff_ne]
    rintro rfl
    exact hname (by decide)
  unfold memberAccess
  refine bind (word?_none hawait) ?_
  rw [if_neg Bool.false_ne_true]
  refine bind (member_name hname _) (bind (peek_true rfl) ?_)
  rw [Bool.and_self, if_pos rfl]
  refine bind (silently hargs) ?_
  exact bind (require rfl _) (bind (write _ _) hbody)

/-- Where an operand ends nothing more stands behind it: no call, no field, no index and no question
mark. -/
theorem trailingOne_none (htail : EndsOperand braces tail) (atom : ExprForm) :
    Leaves (trailingOne rules atom) tail tail none := by
  have hnone : atGroup .paren tail = false ∧ atDot tail = false ∧ atGroup .bracket tail = false ∧
      atOperator "?" tail = false := by
    rcases htail.operand_cases with hstops | ⟨joint, ts, rfl⟩
    · rcases hstops.cases with rfl | ⟨joint, ts, rfl | rfl⟩ | ⟨-, body, ts, rfl⟩ <;>
        exact ⟨rfl, rfl, rfl, rfl⟩
    · exact ⟨rfl, rfl, rfl, rfl⟩
  obtain ⟨hparen, hdot, hbracket, hquestion⟩ := hnone
  unfold trailingOne
  refine bind (ahead tail) ?_
  simp only [hparen, hdot, hbracket, hquestion, Bool.false_and, Bool.false_eq_true, if_false]
  exact pure none tail

/-- What stands behind an atom belongs to its operand. There are no more steps than tokens, which
bound the repetition. -/
theorem trailing {steps : List Unit} (hsteps : Steps (trailingOne rules .other) ts tail steps)
    (hlength : steps.length ≤ ts.length) :
    Leaves (Grammar.trailing rules .other) ts tail .other := by
  refine bind (repeatStep hsteps hlength) ?_
  rw [ite_self]
  exact pure _ tail

/-! ## Paths -/

/-- A name with generic arguments behind `::` is read as a segment. -/
theorem segment_turbofish {arg : Reader TyArg} {inExpr : Bool} {name : String}
    (hname : name ∉ keywords) {args : List TyArg} {joint more trailing : Bool}
    (hargs : Leaves (angledArgs arg) (.punct ':' true :: .punct ':' joint :: .punct '<' more :: ts)
      tail (.angled true args trailing)) :
    Leaves (segment arg inExpr)
      (.ident name :: .punct ':' true :: .punct ':' joint :: .punct '<' more :: ts) tail
      (.mk name (.angled true args trailing)) := by
  obtain ⟨hkeywords, hself⟩ :=
    atWord_of_name hname (.punct ':' true :: .punct ':' joint :: .punct '<' more :: ts)
  have hfish : (atOperator "::" (.punct ':' true :: .punct ':' joint :: .punct '<' more :: ts) &&
      atOperator "<" ((.punct ':' true :: .punct ':' joint :: .punct '<' more :: ts : List
        Token).drop 2)) = true := rfl
  unfold segment
  refine bind (ahead _) ?_
  simp only [hkeywords, hself, Bool.false_eq_true, if_false]
  refine bind (Leaves.name hname _) (bind (ahead _) ?_)
  rw [hfish, Bool.or_true, if_pos rfl]
  exact bind (silently hargs) (bind (write _ tail) (pure _ tail))

/-- A path is read as an atom, unless an invocation or a struct literal begins with it. -/
theorem atom_path {rooted : Bool} {first : String} {path : List Segment} (hfirst : BeginsPath first)
    (hhash : atOperator "#" ts = false)
    (hpath : Leaves (Grammar.segments (Grammar.genericArg rules) true)
      (rootTokens rooted ++ .ident first :: ts) tail (rooted, path))
    (hbang : atBang tail = false) (hbrace : (braces && atGroup .brace tail) = false) :
    Leaves (atom rules braces) (rootTokens rooted ++ .ident first :: ts) tail .other := by
  have hexpr : Leaves (pathExpr rules braces) (rootTokens rooted ++ .ident first :: ts) tail
      .other := by
    have hangle : atOperator "<" (rootTokens rooted ++ .ident first :: ts) = false := by
      cases rooted <;> exact atOperator_eq_false rfl fun _ h => nomatch h
    unfold pathExpr pathForm
    refine bind (bind (peek_false hangle) (bind hpath (pure _ tail))) (bind (ahead tail) ?_)
    simp only [hbang, hbrace, Bool.false_and, Bool.false_eq_true, if_false]
    exact pure _ tail
  unfold atom
  refine bind (ahead _) ?_
  cases rooted with
  | true => exact hexpr
  | false =>
    have hword {w : String} (hw : w ∈ keywords) (hne : w ≠ "crate") :=
      hfirst.atWord_eq_false hw hne ts
    have hliteral := (BeginsType.word hfirst).atValue_eq_false ts
    rw [Bool.or_eq_false_iff] at hliteral
    have hclosure : atClosure (.ident first :: ts) = false := by
      simp only [atClosure, atQuantifier, hword (by decide : "move" ∈ keywords) (by decide),
        hword (by decide : "for" ∈ keywords) (by decide),
        hword (by decide : "const" ∈ keywords) (by decide),
        hword (by decide : "static" ∈ keywords) (by decide),
        hword (by decide : "async" ∈ keywords) (by decide), Bool.false_and, Bool.or_false]
      exact atOperator_eq_false rfl fun _ h => nomatch h
    have hpathStart : atPathStart (.ident first :: ts) = true := by
      rcases hfirst with rfl | hfirst
      · rfl
      · simp [atPathStart, atName, hfirst]
    simp only [rootTokens, Bool.false_eq_true, if_false, List.nil_append, hliteral.1, atAsyncBlock,
      hword (by decide : "async" ∈ keywords) (by decide),
      hword (by decide : "try" ∈ keywords) (by decide), hclosure, Bool.false_and, List.drop_one,
      List.tail_cons, hhash, Bool.and_false, hpathStart, Bool.true_or, if_true]
    exact hexpr

/-! ## Operands -/

/-- Where no attribute is ahead none is read, and nothing is left out. -/
theorem outerAttributes_nil (hhash : atOperator "#" ts = false) :
    Leaves (outerAttributes rules) ts ts [] :=
  repeatWhile (.nil hhash) (Nat.zero_le _)

/-- Whether no prefix operator and no attribute is ahead. -/
def NoPrefix (ts : List Token) : Prop :=
  ∀ c ∈ ['#', '&', '*', '!', '-'], ∀ joint, ts.head? ≠ some (.punct c joint)

/-- An atom and what stands behind it are an operand. -/
theorem readOperand_atom (hts : NoPrefix ts) (hatom : Leaves (atom rules braces) ts rest .other)
    (htrailing : Leaves (Grammar.trailing rules .other) rest tail .other) :
    Leaves (readOperand rules braces) ts tail .other := by
  have hnone {op : String} {c : Char} (hop : op.toList.head? = some c)
      (hc : c ∈ ['#', '&', '*', '!', '-']) : atOperator op ts = false :=
    atOperator_eq_false hop (hts c hc)
  have hfront : Leaves prefixOperator ts ts false := by
    unfold prefixOperator
    refine bind (ahead ts) ?_
    simp only [hnone (rfl : "&".toList.head? = _) (by decide), Bool.false_eq_true, if_false,
      List.find?_cons, hnone (rfl : "*".toList.head? = _) (by decide),
      hnone (rfl : "!".toList.head? = _) (by decide),
      hnone (rfl : "-".toList.head? = _) (by decide), List.find?_nil]
    exact pure false ts
  unfold readOperand
  refine bind (outerAttributes_nil (hnone rfl (by decide))) (bind hfront ?_)
  rw [if_neg Bool.false_ne_true]
  exact bind hatom (bind htrailing (bind (require rfl tail) (pure _ tail)))

/-- An operand behind an asterisk is an operand, which is no literal. -/
theorem readOperand_deref {joint : Bool} {form : ExprForm}
    (hoperand : Leaves (rules (.operand braces)) ts tail form) :
    Leaves (readOperand rules braces) (.punct '*' joint :: ts) tail .other := by
  have hfront : Leaves prefixOperator (.punct '*' joint :: ts) ts true := by
    unfold prefixOperator
    refine bind (ahead _) ?_
    have hfind : ["*", "!", "-"].find? (atOperator · (.punct '*' joint :: ts)) = some "*" := rfl
    rw [if_neg (by simp [atOperator, atOperatorChars]), hfind]
    exact bind (operator_singleton rfl (by decide) joint ts) (pure true ts)
  unfold readOperand
  refine bind (outerAttributes_nil rfl) (bind hfront ?_)
  rw [if_pos rfl]
  exact bind (discard hoperand) (pure _ tail)

/-- An operand behind an ampersand is an operand, with or without `mut` between them. -/
theorem readOperand_reference {joint mutable : Bool} {form : ExprForm}
    (hraw : atWord "raw" ts = false) (hmut : Leaves (word? "mut") ts rest mutable)
    (hoperand : Leaves (rules (.operand braces)) rest tail form) :
    Leaves (readOperand rules braces) (.punct '&' joint :: ts) tail .other := by
  have hfront : Leaves prefixOperator (.punct '&' joint :: ts) rest true := by
    unfold prefixOperator
    refine bind (ahead _) ?_
    rw [if_pos (atOperator_singleton rfl (by decide) joint ts)]
    refine bind (operator_singleton rfl (by decide) joint ts) (bind (ahead ts) ?_)
    rw [hraw, Bool.false_and, if_neg Bool.false_ne_true]
    exact bind (discard hmut) (pure true rest)
  unfold readOperand
  refine bind (outerAttributes_nil rfl) (bind hfront ?_)
  rw [if_pos rfl]
  exact bind (discard hoperand) (pure _ tail)

/-- Two operands with `==` between them are an expression where the expression ends. -/
theorem readClimb_equal {left form : ExprForm} (hleft : left ≠ .range ∧ left ≠ .comparison)
    {joint : Bool} (hoperand : Leaves (rules (.operand braces)) ts tail form)
    (htail : Stops braces tail) :
    Leaves (readClimb rules braces left .lowest) (.punct '=' true :: .punct '=' joint :: ts) tail
      .comparison := by
  have hequal : binaryOperator? (.punct '=' true :: .punct '=' joint :: ts) =
      some ("==", .compare) := rfl
  have hread : Leaves (Grammar.operator "==") ([.punct '=' true, .punct '=' joint] ++ ts) ts () :=
    operator rfl rfl
  have hright : Leaves (rightSide rules braces .compare) ts tail () := by
    refine bind hoperand (bind (ahead tail) (bind (ahead tail) ?_))
    rw [htail.strengthAhead]
    exact pure () tail
  have honce : Leaves (climbOnce rules braces left .lowest)
      (.punct '=' true :: .punct '=' joint :: ts) tail (some .comparison) := by
    unfold climbOnce
    rw [if_neg (by simpa using hleft.1)]
    refine bind (ahead _) ?_
    rw [hequal]
    refine bind (require ?_ _) (bind hread (bind hright (pure _ tail)))
    simpa using hleft.2
  refine bind (ahead _) (bind honce ?_)
  exact bind (climbOnce_none htail _ _) (pure _ tail)

end Leaves

end ServiceDispatch.Grammar
