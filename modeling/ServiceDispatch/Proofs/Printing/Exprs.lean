import ServiceDispatch.Grammar.Statements
import ServiceDispatch.Proofs.Printing.Types

/-!
# Patterns, expressions and statements that are kept

Everything that stands in blocks is kept. The numbers of fields and the old dots of ranges are
printed in another form; where tokens are settled this form is the one that is written.
-/

namespace ServiceDispatch.Grammar

variable {α β : Type} {rules : Rules} {c c' : Cursor} {ts rest own out : List Token}

/-! ## Fields by number -/

/-- A field is read by its name or by its number. -/
theorem member_eq_some {named : Bool} (h : member c = some (named, c')) :
    (named = true ∧ ∃ n, name c = some (n, c')) ∨
      named = false ∧ ∃ text n, c.rest = .literal text :: c'.rest ∧
        Literal.natValue? text = some n ∧ c'.written = .literal (toString n) :: c.written := by
  obtain ⟨ts, written, found⟩ := c
  rw [member, ahead_bind] at h
  dsimp only at h
  split at h
  case h_1 text rest =>
    cases hn : Literal.natValue? text with
    | none =>
      rw [hn] at h
      exact nomatch h
    | some n =>
      rw [hn] at h
      obtain ⟨_, between, hrequire, h⟩ := bind_eq_some.mp h
      obtain ⟨-, rfl⟩ := require_eq_some hrequire
      obtain ⟨rfl, rfl⟩ := Prod.mk.inj (Option.some.inj h)
      exact .inr ⟨rfl, text, n, rfl, hn, rfl⟩
  case h_2 =>
    obtain ⟨_, between, hname, h⟩ := bind_eq_some.mp h
    obtain ⟨rfl, rfl⟩ := pure_eq_some.mp h
    exact .inl ⟨rfl, discard_eq_some hname⟩

/-- A field is kept if its number is decimal. -/
theorem passes_member {named : Bool} (h : member c = some (named, c')) (hc : isSettled c.rest)
    (hdecimal : named = false → ∀ text, c.rest = .literal text :: c'.rest → isDecimal text) :
    ∃ out, Passes .code out c c' := by
  rcases member_eq_some h with ⟨-, n, hname⟩ | ⟨hnamed, text, n, hrest, hn, hwritten⟩
  · exact ⟨_, prints_name c n c' hname hc⟩
  · have htext : toString n = text := by simpa [isDecimal, hn] using hdecimal hnamed text hrest
    refine ⟨[.literal text], hrest ▸ .cons rfl .code _, ?_⟩
    rw [hwritten, htext]
    rfl

/-- A field in front of a colon is kept: its number is decimal. Only a name may stand alone. -/
theorem keeps_member {x y : Reader β} (hx : Keeps .code x) (hy : Keeps .code y) : Keeps .code (do
    let named ← member
    if !named || (← peek (atOperator ":")) then
      operator ":"
      x
    else y) := by
  intro c b c' h hc
  obtain ⟨named, mid, hmember, h⟩ := bind_eq_some.mp h
  obtain ⟨colon, between, hpeek, h⟩ := bind_eq_some.mp h
  obtain ⟨-, rfl⟩ := peek_eq_some hpeek
  obtain ⟨out, hpass⟩ : ∃ out, Passes .code out c mid := by
    refine passes_member hmember hc fun hnamed text hrest => ?_
    subst hnamed
    obtain ⟨_, behind, hcolon, -⟩ := bind_eq_some.mp h
    have hnumber := (unchanged_of_isSettled hc).number
    rw [hrest, renewsNumber, (operator_eq_some hcolon).1, Bool.true_and] at hnumber
    simpa using hnumber
  have hrest : Keeps .code (if !named || colon then (do operator ":"; x) else y) :=
    .ite ((Keeps.operator rfl).before hx) hy
  obtain ⟨out', hpass'⟩ := hrest _ _ _ h (hpass.isSettled hc)
  exact ⟨_, hpass.trans hpass'⟩

/-! ## Patterns -/

/-- Alternatives are kept with the bars between them and the one that may stand in front. -/
theorem keeps_alternatives (h : rules.Keep) : Keeps .code (alternatives rules) := by
  have hmore : Keeps .code (repeatWhile atBar (do operator "|"; rules.pattern)) :=
    .repeatWhile _ ((Keeps.operator rfl).before h.pattern)
  refine (Keeps.operator? rfl).bind fun _ => ?_
  refine h.pattern.bind fun _ => ?_
  exact hmore.returning

/-- A constant block in a pattern is kept, as it is printed the way it is written. -/
theorem keeps_constPattern (h : rules.Keep) : Keeps .code (constPattern rules) :=
  Keeps.verbatim ((Keeps.word "const").before (keeps_attributedBlock h).discard)

/-- The bound of a range is kept, be it a literal, a path or a block. Where none can stand nothing
is read. -/
theorem keeps_rangeBound (h : rules.Keep) : Keeps .code (rangeBound rules) := by
  refine Keeps.ahead.bind fun _ => .ite (.pure false) (.ite ?literal (.ite ?path ?block))
  case literal => exact keeps_literal.discard.returning
  case path => exact (keeps_pathForm h true).discard.returning
  case block => exact (Keeps.require _).before (keeps_constPattern h).returning

/-- The dots of a range are kept unless they are the old ones, which stand for others. -/
theorem rangeDots_cases {obsolete closed : Bool} (h : rangeDots obsolete c = some (closed, c'))
    (hc : isSettled c.rest) :
    (∃ out, Passes .code out c c') ∨
      obsolete = true ∧ closed = true ∧ atOperator "..." c.rest ∧ c'.rest = c.rest.drop 3 := by
  rw [rangeDots, ahead_bind] at h
  rcases ite_eq_some h with ⟨-, h⟩ | ⟨-, h⟩
  · obtain ⟨_, after, hdots, h⟩ := bind_eq_some.mp h
    obtain ⟨rfl, rfl⟩ := pure_eq_some.mp h
    exact .inl ⟨_, prints_operator rfl _ _ _ hdots hc⟩
  rcases ite_eq_some h with ⟨hold, h⟩ | ⟨-, h⟩
  · obtain ⟨_, between, hrequire, h⟩ := bind_eq_some.mp h
    obtain ⟨hobsolete, rfl⟩ := require_eq_some hrequire
    obtain ⟨_, between, hsilent, h⟩ := bind_eq_some.mp h
    obtain ⟨after, hdots, rfl⟩ := silently_eq_some hsilent
    obtain ⟨rfl, rfl⟩ := Prod.mk.inj (Option.some.inj h)
    exact .inr ⟨hobsolete, rfl, hold, (operator_eq_some hdots).2.1⟩
  · obtain ⟨_, after, hdots, h⟩ := bind_eq_some.mp h
    obtain ⟨rfl, rfl⟩ := pure_eq_some.mp h
    exact .inl ⟨_, prints_operator rfl _ _ _ hdots hc⟩

/-- In an expression the dots of a range are kept. -/
theorem keeps_rangeDots : Keeps .code (rangeDots false) := fun _ _ _ h hc =>
  (rangeDots_cases h hc).resolve_right fun hold => nomatch hold.1

/-- Nothing is the end of a range where none can stand. -/
theorem rangeBound_atBoundEnd {ends : Bool} (h : rangeBound rules c = some (ends, c'))
    (hends : ends = true) : atBoundEnd c.rest = false := by
  rw [rangeBound, ahead_bind] at h
  rcases ite_eq_some h with ⟨-, h⟩ | ⟨hnone, -⟩
  · exact absurd ((pure_eq_some.mp h).1.trans hends) (by decide)
  · exact Bool.not_eq_true _ ▸ hnone

/-- A range is kept: dots that have an end are not the old ones. -/
theorem keeps_rangeRest (h : rules.Keep) : Keeps .code (rangeRest rules) := by
  intro c form c' hread hc
  obtain ⟨closed, mid, hdots, hread⟩ := bind_eq_some.mp hread
  have hrest : Keeps .code (do
      let ends ← rangeBound rules
      require (ends || !closed)
      return if ends then .other else .openRange : Reader PatternForm) :=
    (keeps_rangeBound h).bind fun _ => (Keeps.require _).returning
  rcases rangeDots_cases hdots hc with ⟨out, hpass⟩ | ⟨-, rfl, hold, hmid⟩
  · obtain ⟨out', hpass'⟩ := hrest _ _ _ hread (hpass.isSettled hc)
    exact ⟨_, hpass.trans hpass'⟩
  · obtain ⟨ends, after, hbound, hread⟩ := bind_eq_some.mp hread
    obtain ⟨_, between, hrequire, -⟩ := bind_eq_some.mp hread
    have hends : ends = true := by simpa using (require_eq_some hrequire).1
    have hstart := rangeBound_atBoundEnd hbound hends
    have hdots := (unchanged_of_isSettled hc).dots
    rw [renewsDots, hold, Bool.true_and, ← hmid] at hdots
    simp only [atBoundEnd, Bool.or_eq_false_iff] at hstart
    simp [hstart] at hdots

/-- A range without a start is kept, as the old dots cannot stand in it. -/
theorem keeps_rangeWithoutStart (h : rules.Keep) : Keeps .code (rangeWithoutStart rules) := by
  refine keeps_rangeDots.bind fun _ => ?_
  refine (keeps_rangeBound h).bind fun _ => ?_
  exact (Keeps.require _).returning

/-- A field of a struct pattern is kept: a boxed name as it is written, a name that is bound with
modifiers, or a field with the pattern behind its colon. -/
theorem keeps_fieldPattern (h : rules.Keep) : Keeps .code (fieldPattern rules) := by
  refine (Keeps.peek _).bind fun _ => .ite ?boxed ?plain
  case boxed =>
    have hname : Keeps .code (do discard (word? "mut"); discard name) :=
      (Keeps.word? "mut").discard.before Keeps.name.discard
    have hreference : Keeps .code (do
        discard (word? "ref")
        discard (word? "mut")
        discard name) := (Keeps.word? "ref").discard.before hname
    exact Keeps.verbatim ((Keeps.word "box").before hreference)
  case plain =>
    have hpattern : Keeps .code (discard (alternatives rules)) := (keeps_alternatives h).discard
    refine (Keeps.word? "ref").bind fun _ => ?_
    refine (Keeps.word? "mut").bind fun _ => ?_
    exact .ite Keeps.name.discard (keeps_member hpattern (.pure ()))

/-- The fields of a struct pattern are kept, by induction on the bound of the recursion. The list
ends at the end of the group or at two dots. -/
theorem keeps_fieldPatterns (h : rules.Keep) (n : Nat) : Keeps .code (fieldPatterns rules n) := by
  induction n with
  | zero => exact .failure
  | succ n ih =>
    have hnext : Keeps .code (do
        if ← atEnd then return
        operator ","
        fieldPatterns rules n) :=
      (Keeps.peek _).bind fun _ => .ite (.pure ()) ((Keeps.operator rfl).before ih)
    refine (Keeps.peek _).bind fun _ => .ite (.pure ()) ?_
    refine (keeps_outerAttributes h).discard.before ?_
    refine (Keeps.operator? rfl).bind fun _ => .ite (.pure ()) ?_
    exact (keeps_fieldPattern h).before hnext

/-- A pattern that begins with a path is kept: an invocation, a struct, a tuple, a range or the
path alone. -/
theorem keeps_pathPattern (h : rules.Keep) : Keeps .code (pathPattern rules) := by
  refine (keeps_pathForm h true).bind fun _ => Keeps.ahead.bind fun _ => ?_
  refine .ite ?invocation (.ite ?fields (.ite ?elements (.ite ?range (.pure _))))
  case invocation => exact keeps_invocationBody.discard.returning
  case fields =>
    have hfields : Keeps .code (do fieldPatterns rules ((← ahead).length + 2)) :=
      Keeps.ahead.bind fun _ => keeps_fieldPatterns h _
    exact (hfields.group .brace).returning
  case elements =>
    have helements : Keeps .code (commaList (alternatives rules)) :=
      .commaList (keeps_alternatives h)
    exact (helements.group .paren).discard.returning
  case range => exact keeps_rangeRest h

/-- A name that is bound is kept with its modifiers and the pattern behind an at sign. -/
theorem keeps_bindingPattern (h : rules.Keep) : Keeps .code (bindingPattern rules) := by
  have hrest : Keeps .code (do if ← operator? "@" then discard rules.pattern) :=
    (Keeps.operator? rfl).bind fun _ => .ite h.pattern.discard (.pure ())
  refine (Keeps.word? "ref").discard.before ?_
  refine (Keeps.word? "mut").discard.before ?_
  refine (Keeps.word? "self").bind fun _ => ?_
  exact .ite (Keeps.name.discard.before hrest) hrest

/-- A pattern without alternatives is kept, whichever form it has. A slice is one of alternatives
that are no open ranges. -/
theorem keeps_readPattern (h : rules.Keep) : Keeps .code (readPattern rules) := by
  have helements : Keeps .code (commaList (alternatives rules)) := .commaList (keeps_alternatives h)
  have hclosed : Keeps .code (commaList do require ((← alternatives rules) != .openRange)) :=
    .commaList ((keeps_alternatives h).bind fun _ => .require _)
  refine Keeps.ahead.bind fun _ => .ite (keeps_pathPattern h) ?_
  refine .ite (Keeps.word "_").returning (.ite ?boxed (.ite ?value (.ite ?binding ?other)))
  case boxed =>
    exact (Keeps.verbatim ((Keeps.word "box").before h.pattern.discard)).returning
  case value =>
    refine (keeps_rangeBound h).bind fun _ => (Keeps.require _).before ?_
    exact (Keeps.peek _).bind fun _ => .ite (keeps_rangeRest h) (.pure _)
  case binding => exact (keeps_bindingPattern h).returning
  case other =>
    refine .ite ?reference (.ite (helements.group .paren).discard.returning ?_)
    case reference =>
      refine (Keeps.operator rfl).before ?_
      refine (Keeps.word? "mut").discard.before ?_
      exact h.pattern.discard.returning
    refine .ite (hclosed.group .bracket).discard.returning ?_
    exact .ite (keeps_rangeWithoutStart h) .failure

/-! ## Operators -/

/-- An operand is kept by the rule for it. -/
theorem keeps_operand (h : rules.Keep) (braces : Bool) : Keeps .code (rules (.operand braces)) :=
  h.form _

/-- The stronger operators behind an operand are kept, by induction on the bound of the
recursion. -/
theorem keeps_strongerUpTo (h : rules.Keep) (braces : Bool) (strength : Strength) (n : Nat)
    (form : ExprForm) : Keeps .code (strongerUpTo rules braces strength n form) := by
  induction n generalizing form with
  | zero => exact .failure
  | succ n ih =>
    refine Keeps.ahead.bind fun ts => .ite ?stronger (.pure ())
    case stronger =>
      refine (h.form (.climb braces form (strengthAhead ts))).bind fun form => ?_
      exact Keeps.ahead.bind fun _ => .ite (ih form) (.pure ())

/-- The right side of an operator is kept: an operand with the stronger operators behind it. -/
theorem keeps_rightSide (h : rules.Keep) (braces : Bool) (strength : Strength) :
    Keeps .code (rightSide rules braces strength) := by
  refine (keeps_operand h braces).bind fun form => Keeps.ahead.bind fun _ => ?_
  exact keeps_strongerUpTo h braces strength _ form

/-- The dots of a range are kept with the end that may stand behind them. -/
theorem keeps_rangeTail (h : rules.Keep) (braces : Bool) :
    Keeps .code (rangeTail rules braces) := by
  refine keeps_rangeDots.bind fun _ => ?_
  exact (Keeps.peek _).bind fun _ => .ite (.pure ()) (keeps_rightSide h braces .range)

/-- One operator behind an operand is kept with its right side, be it a binary one, an assignment,
a range or a cast. -/
theorem keeps_climbOnce (h : rules.Keep) (braces : Bool) (left : ExprForm) (base : Strength) :
    Keeps .code (climbOnce rules braces left base) := by
  refine .ite (.pure none) (Keeps.ahead.bind fun ts => ?_)
  cases binaryOperator? ts with
  | some entry =>
    have hright := keeps_rightSide h braces entry.2
    refine .ite (.pure none) ((Keeps.require _).before ?_)
    exact (Keeps.operator (fits_code _)).before hright.returning
  | none =>
    refine .ite ?assignment (.ite (keeps_rangeTail h braces).returning (.ite ?cast (.pure none)))
    case assignment =>
      exact (Keeps.operator rfl).before (keeps_rightSide h braces .assign).returning
    case cast =>
      refine (Keeps.word "as").before ?_
      refine (h.typeIn false).discard.before ?_
      exact Keeps.ahead.bind fun _ => (Keeps.require _).returning

/-- The operators behind an operand are kept one by one, by induction on the bound of the
recursion. -/
theorem keeps_climbUpTo (h : rules.Keep) (braces : Bool) (base : Strength) (n : Nat)
    (left : ExprForm) : Keeps .code (climbUpTo rules braces base n left) := by
  induction n generalizing left with
  | zero => exact .failure
  | succ n ih =>
    refine (keeps_climbOnce h braces left base).bind fun form => ?_
    cases form with
    | some form => exact ih form
    | none => exact .pure left

/-- All operators behind an operand are kept. -/
theorem keeps_readClimb (h : rules.Keep) (braces : Bool) (left : ExprForm) (base : Strength) :
    Keeps .code (readClimb rules braces left base) :=
  Keeps.ahead.bind fun _ => keeps_climbUpTo h braces base _ left

/-! ## What follows an atom -/

/-- The arguments of a call are kept. -/
theorem keeps_arguments (h : rules.Keep) : Keeps .code (arguments rules) :=
  ((Keeps.commaList h.expr).group .paren).discard

/-- What may follow a member is kept: arguments, and generic arguments in front of them, which are
written from their value. -/
theorem keeps_memberArguments (h : rules.Keep) (named : Bool) : Keeps .code (do
    let turbofish ← peek (atOperator "::")
    if named && turbofish then
      let args ← silently (angledArgs (genericArg rules))
      require (match args with
        | .angled turbofish _ _ => turbofish
        | _ => false)
      write args.tokens
      arguments rules
    else if named && (← peek (atGroup .paren)) then arguments rules) := by
  have hargs : Builds .code (angledArgs (genericArg rules)) PathArgs.tokens := fun _ _ _ hread hc =>
    (builds_angledArgs (buildsArg_genericArg h) hread hc).1.code
  refine (Keeps.peek _).bind fun _ => .ite ?generic ?plain
  case generic =>
    intro c _ c' hread hc
    obtain ⟨args, between, hsilent, hread⟩ := bind_eq_some.mp hread
    obtain ⟨after, hangled, rfl⟩ := silently_eq_some hsilent
    obtain ⟨_, between, hrequire, hread⟩ := bind_eq_some.mp hread
    obtain ⟨-, rfl⟩ := require_eq_some hrequire
    obtain ⟨_, mid, hwrite, hread⟩ := bind_eq_some.mp hread
    have hpass : Passes .code args.tokens c mid :=
      .of_write hwrite rfl (hargs c args after hangled hc)
    obtain ⟨out, hmore⟩ := keeps_arguments h _ _ _ hread (hpass.isSettled hc)
    exact ⟨_, hpass.trans hmore⟩
  case plain => exact (Keeps.peek _).bind fun _ => .ite (keeps_arguments h) (.pure ())

/-- A member is kept if its number is decimal. -/
theorem passes_memberAccess (h : rules.Keep) (hread : memberAccess rules c = some ((), c'))
    (hc : isSettled c.rest)
    (hdecimal : ∀ text rest, c.rest = .literal text :: rest → isDecimal text) :
    ∃ out, Passes .code out c c' := by
  obtain ⟨await, mid, hawait, hread⟩ := bind_eq_some.mp hread
  cases await with
  | true =>
    obtain ⟨-, rfl⟩ := pure_eq_some.mp hread
    exact ⟨_, prints_word? "await" _ _ _ hawait hc⟩
  | false =>
    obtain rfl : c = mid :=
      (optional_eq_some hawait).elim (fun hthere => nomatch hthere.1) fun hnone => hnone.2.2
    obtain ⟨named, mid, hmember, hread⟩ := bind_eq_some.mp hread
    obtain ⟨out, hpass⟩ := passes_member hmember hc fun _ text hrest => hdecimal text _ hrest
    obtain ⟨out', hmore⟩ := keeps_memberArguments h named _ _ _ hread (hpass.isSettled hc)
    exact ⟨_, hpass.trans hmore⟩

/-- A number behind a dot is the number of one field, in decimal form. -/
theorem isDecimal_of_dot {joint : Bool} {text : String}
    (hc : isSettled (.punct '.' joint :: .literal text :: rest)) :
    Literal.isFloat text = false ∧ isDecimal text := by
  have hnumber : (Literal.isFloat text || !isDecimal text) = false :=
    (unchanged_of_isSettled hc).number
  simpa using hnumber

/-- A dot is kept with the field or method behind it. Where tokens are settled no number behind a
dot stands for several fields, as for those other tokens would be printed. -/
theorem keeps_access (h : rules.Keep) : Keeps .code (access rules) := by
  intro c _ c' hread hc
  obtain ⟨_, mid, hdot, hread⟩ := bind_eq_some.mp hread
  have hpass : Passes .code (Token.operator ".") c mid := prints_operator rfl _ _ _ hdot hc
  have hmid := hpass.isSettled hc
  obtain ⟨hat, hrest, -⟩ := operator_eq_some hdot
  obtain ⟨joint, hstart⟩ := exists_of_atOperator_char rfl rfl hat
  have hrest : mid.rest = c.rest.drop 1 := hrest
  rw [← hrest] at hstart
  have hdecimal (text : String) (rest : List Token) (hliteral : mid.rest = .literal text :: rest) :
      Literal.isFloat text = false ∧ isDecimal text := by
    rw [hstart, hliteral] at hc
    exact isDecimal_of_dot hc
  suffices haccess : memberAccess rules mid = some ((), c') by
    obtain ⟨out, hmore⟩ := passes_memberAccess h haccess hmid fun text rest hliteral =>
      (hdecimal text rest hliteral).2
    exact ⟨_, hpass.trans hmore⟩
  obtain ⟨ts, written, found⟩ := mid
  rw [ahead_bind] at hread
  dsimp only at hread
  split at hread
  case h_1 text rest _ =>
    rcases ite_eq_some hread with ⟨hfloat, -⟩ | ⟨-, hread⟩
    · exact absurd ((hdecimal text rest rfl).1.symm.trans hfloat) (by decide)
    · exact hread
  case h_2 => exact hread

/-- A call, a field, an index or a question mark behind an expression is kept. -/
theorem keeps_trailingOne (h : rules.Keep) (first : ExprForm) :
    Keeps .code (trailingOne rules first) := by
  refine Keeps.ahead.bind fun _ => .ite (keeps_arguments h).returning ?_
  refine .ite (keeps_access h).returning (.ite ?index (.ite ?question (.pure none)))
  case index => exact (h.expr.group .bracket).discard.returning
  case question => exact (Keeps.operator rfl).returning

/-- All that follows an atom is kept. -/
theorem keeps_trailing (h : rules.Keep) (first : ExprForm) : Keeps .code (trailing rules first) :=
  (Keeps.repeatStep (keeps_trailingOne h first)).returning

/-! ## Blocks -/

/-- A condition is kept with the block behind it. -/
theorem keeps_conditionAndBlock (h : rules.Keep) : Keeps .code (conditionAndBlock rules) :=
  h.condition.discard.before h.block

/-- A chain of conditions is kept, by induction on the bound of the recursion. Its last block may
have no condition. -/
theorem keeps_ifChain (h : rules.Keep) (n : Nat) : Keeps .code (ifChain rules n) := by
  induction n with
  | zero => exact .failure
  | succ n ih =>
    have helse : Keeps .code (do if ← peek (atWord "if") then ifChain rules n else rules.block) :=
      (Keeps.peek _).bind fun _ => .ite ih h.block
    refine (Keeps.word "if").before ?_
    refine (keeps_conditionAndBlock h).before ?_
    exact (Keeps.word? "else").bind fun _ => .ite helse (.pure ())

/-- A branch of a match is kept: its pattern, the condition that may stand behind it, and its
body. -/
theorem keeps_matchArm (h : rules.Keep) : Keeps .code (matchArm rules) := by
  have hbody : Keeps .code (do
      operator "=>"
      let body : ExprForm ← rules .statementExpr
      if !(← operator? ",") then
        require (body == .block || (← atEnd))) := by
    refine (Keeps.operator rfl).before ?_
    refine (h.form .statementExpr).bind fun _ => ?_
    refine (Keeps.operator? rfl).bind fun _ => .ite ?last (.pure ())
    case last => exact (Keeps.peek _).bind fun _ => .require _
  refine (keeps_outerAttributes h).discard.before ?_
  refine (keeps_alternatives h).discard.before ?_
  exact (Keeps.word? "if").bind fun _ => .ite (h.expr.discard.before hbody) hbody

/-- A loop is kept with its condition and its block; a block may also stand alone. -/
theorem keeps_loopForm (h : rules.Keep) : Keeps .code (loopForm rules) := by
  have hblock : Keeps .code (do
      discard (attributedBlock rules)
      return .block : Reader ExprForm) := (keeps_attributedBlock h).discard.returning
  have hcondition : Keeps .code (do
      discard rules.condition
      discard (attributedBlock rules)
      return .block : Reader ExprForm) := h.condition.discard.before hblock
  refine Keeps.ahead.bind fun _ => .ite ((Keeps.word "while").before hcondition) ?_
  refine .ite ?each (.ite ((Keeps.word "loop").before hblock) hblock)
  case each =>
    refine (Keeps.word "for").before ?_
    refine (keeps_alternatives h).discard.before ?_
    exact (Keeps.word "in").before hcondition

/-- A loop or block is kept with its label. -/
theorem keeps_labeled (h : rules.Keep) : Keeps .code (labeled rules) := by
  refine Keeps.lifetime.discard.before ?_
  exact (Keeps.operator rfl).before (keeps_loopForm h)

/-- A form that begins with a word and ends in a block is kept. -/
theorem keeps_blockForm (h : rules.Keep) : Keeps .code (blockForm rules) := by
  refine Keeps.ahead.bind fun _ => .ite (keeps_ifChain h _).returning ?_
  refine .ite ?branches (.ite ?marked (.ite ?attempted (keeps_loopForm h)))
  case branches =>
    have harms : Keeps .code (do
        discard (innerAttributes rules)
        discard (untilEnd (matchArm rules))) :=
      (keeps_innerAttributes h).discard.before (Keeps.untilEnd (keeps_matchArm h)).discard
    refine (Keeps.word "match").before ?_
    refine h.condition.discard.before ?_
    exact (harms.group .brace).returning
  case marked => exact Keeps.anyWord.discard.before (keeps_attributedBlock h).discard.returning
  case attempted => exact (Keeps.word "try").before h.block.returning

/-! ## Closures, literals and jumps -/

/-- A parameter of a closure is kept with the type that may stand behind it. -/
theorem keeps_closureParam (h : rules.Keep) : Keeps .code (closureParam rules) := by
  refine (keeps_outerAttributes h).discard.before ?_
  refine h.pattern.discard.before ?_
  exact (Keeps.operator? rfl).bind fun _ => .ite h.plusType.discard (.pure ())

/-- A closure is kept: the lifetimes that it is bound over, its modifiers and parameters, and its
body, which is a block if a type stands in front of it. -/
theorem keeps_closure (h : rules.Keep) (braces : Bool) : Keeps .code (closure rules braces) := by
  have hmodifier (w : String) (r : PUnit) : Keeps .code (do
      discard (word? w)
      return ForInStep.yield r : Reader (ForInStep PUnit)) := (Keeps.word? w).discard.returning
  have hbody : Keeps .code (do
      if ← operator? "->" then
        discard rules.type
        rules.block
      else discard (rules (.expr braces))) :=
    (Keeps.operator? rfl).bind fun _ => .ite (h.plusType.discard.before h.block) (h.form _).discard
  have hrest : Keeps .code (do
      for w in ["const", "static", "async", "move"] do
        discard (word? w)
      operator "|"
      discard (separated (atOperator "|") "," (closureParam rules))
      operator "|"
      if ← operator? "->" then
        discard rules.type
        rules.block
      else discard (rules (.expr braces))) := by
    refine (Keeps.forIn hmodifier _ _).bind fun _ => ?_
    refine (Keeps.operator rfl).before ?_
    refine (Keeps.separated rfl (keeps_closureParam h) _).discard.before ?_
    exact (Keeps.operator rfl).before hbody
  have hbound : Keeps .code (boundLifetimes rules) := (keeps_boundLifetimes h).of_type _
  exact (Keeps.peek _).bind fun _ => .ite (hbound.before hrest) hrest

/-- The fields of a struct literal are kept, by induction on the bound of the recursion. Behind two
dots stands the value that the other fields are taken from. -/
theorem keeps_structFields (h : rules.Keep) (n : Nat) : Keeps .code (structFields rules n) := by
  induction n with
  | zero => exact .failure
  | succ n ih =>
    have hnext : Keeps .code (do
        if ← atEnd then return
        operator ","
        structFields rules n) :=
      (Keeps.peek _).bind fun _ => .ite (.pure ()) ((Keeps.operator rfl).before ih)
    refine (Keeps.peek _).bind fun _ => .ite (.pure ()) ?_
    refine (Keeps.operator? rfl).bind fun _ => .ite ?others ?field
    case others =>
      exact (Keeps.peek _).bind fun _ => .ite h.expr.discard.returning (.pure ())
    case field =>
      have hvalue := h.expr.discard.before hnext
      exact (keeps_outerAttributes h).discard.before (keeps_member hvalue hnext)

/-- An expression that begins with a path is kept: an invocation, a struct or the path alone. -/
theorem keeps_pathExpr (h : rules.Keep) (braces : Bool) : Keeps .code (pathExpr rules braces) := by
  have hfields : Keeps .code (do structFields rules ((← ahead).length + 2)) :=
    Keeps.ahead.bind fun _ => keeps_structFields h _
  refine (keeps_pathForm h true).bind fun _ => Keeps.ahead.bind fun _ => ?_
  refine .ite keeps_invocationBody.returning ?_
  exact .ite (hfields.group .brace).returning (.pure _)

/-- An array is kept, be it written with its elements or with one element and a length. -/
theorem keeps_arrayExpr (h : rules.Keep) : Keeps .code (arrayExpr rules) := by
  refine Keeps.group ((Keeps.peek _).bind fun _ => .ite (.pure ()) ?_) .bracket
  refine h.expr.discard.before ?_
  refine (Keeps.operator? rfl).bind fun _ => .ite h.expr.discard ?elements
  case elements =>
    exact (Keeps.operator? rfl).bind fun _ => .ite (Keeps.commaList h.expr).discard (.pure ())

/-- A value that may stand behind a word is kept. -/
theorem keeps_optionalValue (h : rules.Keep) (allowed : List Token → Bool) :
    Keeps .code (optionalValue rules allowed) :=
  (Keeps.peek _).bind fun _ => .ite h.expr.discard (.pure ())

/-- A form that ends the flow of control is kept with its label and its value. -/
theorem keeps_jump (h : rules.Keep) (braces : Bool) : Keeps .code (jump rules braces) := by
  have hvalue := keeps_optionalValue h
  refine Keeps.ahead.bind fun _ => .ite ?leave (.ite ?again (.ite ?become ?other))
  case leave =>
    refine (Keeps.word "break").before ?_
    refine Keeps.lifetime?.bind fun _ => .ite ?labelled (hvalue _)
    case labelled => exact (Keeps.peek _).bind fun _ => (Keeps.require _).before (hvalue _)
  case again => exact (Keeps.word "continue").before Keeps.lifetime?.discard
  case become => exact Keeps.verbatim ((Keeps.word "become").before h.expr.discard)
  case other => exact Keeps.anyWord.discard.before (hvalue _)

/-- A binding condition is kept: its pattern and the operands behind the equals sign. -/
theorem keeps_letCondition (h : rules.Keep) (braces : Bool) :
    Keeps .code (letCondition rules braces) := by
  refine (Keeps.word "let").before ?_
  refine (keeps_alternatives h).discard.before ?_
  refine (Keeps.operator rfl).before ?_
  exact (keeps_operand h braces).bind fun _ => (h.form _).discard

/-- A form of the compiler's own libraries is kept, as it is printed the way it is written. -/
theorem keeps_builtinForm : Keeps .code builtinForm := by
  refine Keeps.verbatim ?_
  refine (Keeps.word "builtin").before ?_
  refine (Keeps.operator rfl).before ?_
  exact Keeps.name.discard.before (Keeps.anyGroup.bind fun _ => .require _)

/-! ## Operands and expressions -/

/-- An atom is kept, whichever form it has. -/
theorem keeps_atom (h : rules.Keep) (braces : Bool) : Keeps .code (atom rules braces) := by
  have hmarked : Keeps .code (do
      word "async"
      discard (word? "move")
      rules.block
      return .other : Reader ExprForm) := by
    refine (Keeps.word "async").before ?_
    exact (Keeps.word? "move").discard.before h.block.returning
  have helements : Keeps .code (discard (group .paren (commaList rules.expr))) :=
    ((Keeps.commaList h.expr).group .paren).discard
  refine Keeps.ahead.bind fun _ => .ite keeps_literal.returning ?_
  refine .ite hmarked (.ite (keeps_blockForm h) ?_)
  refine .ite (keeps_closure h braces).returning ?_
  refine .ite keeps_builtinForm.returning (.ite (keeps_pathExpr h braces) ?_)
  refine .ite helements.returning (.ite (keeps_jump h braces).returning ?_)
  refine .ite (keeps_arrayExpr h).returning (.ite (keeps_letCondition h braces).returning ?_)
  refine .ite (keeps_blockForm h) (.ite (keeps_rangeTail h braces).returning ?_)
  exact .ite (Keeps.word "_").returning (.ite (keeps_labeled h) .failure)

/-- A prefix operator is kept; the one of a reference is kept with the words behind it. -/
theorem keeps_prefixOperator : Keeps .code prefixOperator := by
  refine Keeps.ahead.bind fun ts => .ite ?reference ?other
  case reference =>
    refine (Keeps.operator rfl).before ?_
    refine Keeps.ahead.bind fun _ => .ite ?raw (Keeps.word? "mut").discard.returning
    case raw => exact (Keeps.word "raw").before Keeps.anyWord.discard.returning
  case other =>
    split
    · exact (Keeps.operator (fits_code _)).returning
    · exact .pure false

/-- An operand is kept: an operand behind a prefix operator, or an atom with all that follows it. -/
theorem keeps_readOperand (h : rules.Keep) (braces : Bool) :
    Keeps .code (readOperand rules braces) := by
  refine (keeps_outerAttributes h).bind fun _ => ?_
  refine keeps_prefixOperator.bind fun _ => .ite (keeps_operand h braces).discard.returning ?_
  refine (keeps_atom h braces).bind fun first => ?_
  exact (keeps_trailing h first).bind fun _ => (Keeps.require _).returning

/-- An expression is kept: an operand with the operators behind it. -/
theorem keeps_readExpr (h : rules.Keep) (braces : Bool) : Keeps .code (readExpr rules braces) :=
  (keeps_operand h braces).bind fun _ => h.form _

/-- An expression that may end with its block is kept, and so is what a dot or a question mark adds
to it. -/
theorem keeps_readStatementExpr (h : rules.Keep) : Keeps .code (readStatementExpr rules) := by
  have htrailing (form : ExprForm) : Keeps .code (do
      let form ← trailing rules form
      rules (.climb true form .lowest)) := (keeps_trailing h form).bind fun _ => h.form _
  have hrest (form : ExprForm) : Keeps .code (do
      if form != .block then rules (.climb true form .lowest)
      else if ← peek fun ts => atDot ts || atOperator "?" ts then
        let form ← trailing rules form
        rules (.climb true form .lowest)
      else return .block) :=
    .ite (h.form _) ((Keeps.peek _).bind fun _ => .ite (htrailing form) (.pure _))
  refine (keeps_outerAttributes h).discard.before ?_
  refine Keeps.ahead.bind fun _ => .ite ((keeps_blockForm h).bind hrest) ?_
  exact .ite ((keeps_labeled h).bind hrest) ((keeps_operand h true).bind hrest)

/-! ## Statements -/

/-- Asking what a reader would leave reads nothing. -/
theorem keeps_following (p : Reader α) : Keeps .code (following p) := by
  intro c _ c' h _
  obtain ⟨-, rfl⟩ := Prod.mk.inj (Option.some.inj h)
  exact ⟨[], .refl .code c⟩

/-- Asking whether an invocation stands ahead reads nothing. -/
theorem keeps_statementInvocation : Keeps .code statementInvocation := by
  refine (keeps_following plainPath).bind fun rest => ?_
  split
  · exact .ite (.pure _) (.ite (.pure _) (.pure _))
  · exact .pure _

/-- The value of a binding is kept with the block that may stand behind it. It is captured, and
then written as it was read. -/
theorem keeps_initializer (h : rules.Keep) : Keeps .code (initializer rules) := by
  have hblock : Keeps .code (do word "else"; rules.block) := (Keeps.word "else").before h.block
  refine (Keeps.operator? rfl).bind fun _ => .ite ?value (.pure ())
  case value =>
    refine .captured_write h.expr fun _ value => ⟨_, rfl, ?_⟩
    exact (Keeps.peek _).bind fun _ => .ite hblock (.pure ())

/-- A local binding is kept: its pattern, the type that may stand behind it, and its value. -/
theorem keeps_localBinding (h : rules.Keep) : Keeps .code (localBinding rules) := by
  have hvalue : Keeps .code (do initializer rules; operator ";") :=
    (keeps_initializer h).before (.operator rfl)
  refine (Keeps.word "let").before ?_
  refine h.pattern.discard.before ?_
  exact (Keeps.operator? rfl).bind fun _ => .ite (h.plusType.discard.before hvalue) hvalue

/-- An expression that is a statement is kept with its semicolon. -/
theorem keeps_exprStatement (h : rules.Keep) : Keeps .code (exprStatement rules) := by
  refine (h.form .statementExpr).bind fun _ => ?_
  refine (Keeps.operator? rfl).bind fun _ => .ite ?last (.pure ())
  case last => exact (Keeps.peek _).bind fun _ => .require _

/-- Recording an item reads nothing. -/
theorem keeps_record (item : Item) : Keeps .code (record item) := by
  intro c _ c' h _
  obtain ⟨-, rfl⟩ := Prod.mk.inj (Option.some.inj h)
  exact ⟨[], .refl .code c⟩

/-- A statement is kept: an invocation, a binding, an item or an expression. An item is read anew
from the start of the statement, so that tokens are kept since that cursor. -/
theorem keeps_statement (h : rules.Keep) : Keeps .code (statement rules) := by
  have hinvocation : Keeps .code (do
      discard plainPath
      discard invocationBody
      discard (operator? ";")) := by
    refine keeps_plainPath.discard.before ?_
    exact keeps_invocationBody.discard.before (Keeps.operator? rfl).discard
  have hitem : Keeps .code (do record (← rules .item)) := (h.form .item).bind keeps_record
  refine .restarting fun start hstart => ?_
  refine .bind (.of_keeps (keeps_outerAttributes h).discard hstart) fun _ => ?_
  refine .bind (.of_keeps keeps_statementInvocation hstart) fun _ => ?_
  refine .bind (.of_keeps Keeps.ahead hstart) fun _ => ?_
  refine .ite (.of_keeps hinvocation hstart) ?_
  refine .ite (.of_keeps (keeps_localBinding h) hstart) ?_
  exact .ite (.restart hitem hstart) (.of_keeps (keeps_exprStatement h) hstart)

/-- The next statement is kept with the semicolons in front of it, if there is one. -/
theorem keeps_nextStatement (h : rules.Keep) : Keeps .code (nextStatement rules) := by
  refine (Keeps.repeatWhile _ (Keeps.operator rfl)).discard.before ?_
  exact (Keeps.peek _).bind fun _ => .ite (.pure _) (keeps_statement h).returning

/-- The statements of a block are kept. -/
theorem keeps_readStatements (h : rules.Keep) : Keeps .code (readStatements rules) :=
  (Keeps.repeatStep (keeps_nextStatement h)).discard

end ServiceDispatch.Grammar
