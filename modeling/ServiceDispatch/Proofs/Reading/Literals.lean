import ServiceDispatch.Grammar.Source
import ServiceDispatch.Proofs.Reading.Exprs
import ServiceDispatch.Proofs.Reading.Inversion

/-!
# Literals as expressions

An expression has the form of a literal only if it is one, perhaps with attributes in front of it:
all else that may stand in an expression gives it another form.
-/

namespace ServiceDispatch.Grammar

variable {rules : Rules} {braces : Bool} {text : String} {c c' : Cursor}

/-! ## Forms of atoms -/

/-- Whether a form is that of a literal. -/
def ExprForm.IsLiteral (form : ExprForm) : Prop := ∃ text, form = .literal text

/-- Loops and blocks end in a block, with and without a label. -/
theorem yields_loopForm : Yields (loopForm rules) (· = .block) := by
  unfold loopForm
  repeat' first | exact .pure rfl | apply Yields.ite | refine .bind fun _ => ?_

/-- What begins with a word and ends in a block ends in a block. -/
theorem yields_blockForm : Yields (blockForm rules) (· = .block) := by
  unfold blockForm
  repeat' first
    | exact yields_loopForm
    | exact .pure rfl
    | apply Yields.ite
    | refine .bind fun _ => ?_

/-- What begins with a path is no literal, whatever follows the path. -/
theorem yields_pathExpr : Yields (pathExpr rules braces) fun form => ¬ form.IsLiteral := by
  unfold pathExpr
  repeat' first | exact .pure (by rintro ⟨_, ⟨⟩⟩) | apply Yields.ite | refine .bind fun _ => ?_

/-- An atom is a literal only if a literal is ahead, as no other branch has the form of one. -/
theorem atom_literal (h : atom rules braces c = some (.literal text, c')) :
    literal c = some (text, c') := by
  have hblock {p : Reader ExprForm} (hp : Yields p (· = .block)) :
      Yields p fun form => ¬ form.IsLiteral := by
    intro c a c' h
    rw [hp c a c' h]
    rintro ⟨_, ⟨⟩⟩
  unfold atom at h
  rw [ahead_bind] at h
  by_cases hliteral : atLiteral c.rest
  · rw [if_pos hliteral] at h
    obtain ⟨own, after, hread, hvalue⟩ := bind_eq_some.mp h
    obtain ⟨hform, rfl⟩ := pure_eq_some.mp hvalue
    rw [hread, ExprForm.literal.inj hform]
  · rw [if_neg hliteral] at h
    refine absurd ⟨text, rfl⟩ (?_ : ¬ ExprForm.IsLiteral (.literal text))
    refine (?_ : Yields _ fun form => ¬ ExprForm.IsLiteral form) c _ c' h
    repeat' first
      | exact hblock yields_blockForm
      | exact hblock (.bind fun _ => .bind fun _ => yields_loopForm)
      | exact yields_pathExpr
      | exact .failure
      | exact .pure (by rintro ⟨_, ⟨⟩⟩)
      | apply Yields.ite
      | refine .bind fun _ => ?_

/-! ## Literals with nothing around them -/

/-- Where nothing stands behind an atom the reader has not moved. -/
theorem trailingOne_none_eq {atom : ExprForm} (h : trailingOne rules atom c = some (none, c')) :
    c = c' := by
  unfold trailingOne at h
  rw [ahead_bind] at h
  have hsome {p : Reader Unit} : Yields (p >>= fun _ => pure (some ())) (· ≠ none) :=
    .bind fun _ => .pure (Option.some_ne_none ())
  split_ifs at h
  case neg => exact (pure_eq_some.mp h).2
  all_goals exact absurd rfl (hsome c none c' h)

/-- A literal has nothing behind it: what follows an atom makes it another form. -/
theorem trailing_literal {atom : ExprForm}
    (h : trailing rules atom c = some (.literal text, c')) : atom = .literal text ∧ c = c' := by
  obtain ⟨steps, between, hsteps, h⟩ := bind_eq_some.mp h
  obtain ⟨hform, rfl⟩ := pure_eq_some.mp h
  cases steps with
  | nil => exact ⟨hform, trailingOne_none_eq (repeatStep_nil hsteps)⟩
  | cons _ _ => exact nomatch hform

/-- Either no operator is taken and the reader has not moved, or what is taken is no literal. -/
theorem climbOnce_cases {left : ExprForm} {base : Strength} {value : Option ExprForm}
    (h : climbOnce rules braces left base c = some (value, c')) :
    value = none ∧ c = c' ∨ ∃ form, value = some form ∧ ¬ form.IsLiteral := by
  have hstays (h : (pure none : Reader (Option ExprForm)) c = some (value, c')) :
      value = none ∧ c = c' ∨ ∃ form, value = some form ∧ ¬ form.IsLiteral := by
    obtain ⟨rfl, rfl⟩ := pure_eq_some.mp h
    exact .inl ⟨rfl, rfl⟩
  have htakes {p : Reader (Option ExprForm)}
      (hp : Yields p fun value => ∃ form, value = some form ∧ ¬ form.IsLiteral)
      (h : p c = some (value, c')) :
      value = none ∧ c = c' ∨ ∃ form, value = some form ∧ ¬ form.IsLiteral :=
    .inr (hp c value c' h)
  unfold climbOnce at h
  split_ifs at h
  · exact hstays h
  rw [ahead_bind] at h
  cases hoperator : binaryOperator? c.rest with
  | some entry =>
    simp only [hoperator] at h
    split_ifs at h
    · exact hstays h
    all_goals
      refine htakes (.bind fun _ => .bind fun _ => .bind fun _ => .pure ⟨_, rfl, ?_⟩) h
      rintro ⟨_, ⟨⟩⟩
  | none =>
    simp only [hoperator] at h
    split_ifs at h
    case neg => exact hstays h
    all_goals
      refine htakes ?_ h
      repeat' first | exact .pure ⟨_, rfl, by rintro ⟨_, ⟨⟩⟩⟩ | refine .bind fun _ => ?_

/-- A literal has no operators behind it, since operands of an operator form no literal. -/
theorem readClimb_literal {left : ExprForm} {base : Strength}
    (h : readClimb rules braces left base c = some (.literal text, c')) :
    left = .literal text ∧ c = c' := by
  have hother (n : Nat) (form : ExprForm) (hform : ¬ form.IsLiteral) :
      Yields (climbUpTo rules braces base n form) fun form => ¬ form.IsLiteral := by
    induction n generalizing form with
    | zero => exact .failure
    | succ n ih =>
      intro c own c' h
      obtain ⟨value, between, honce, h⟩ := bind_eq_some.mp h
      rcases climbOnce_cases honce with ⟨rfl, -⟩ | ⟨more, rfl, hmore⟩
      · rwa [← (pure_eq_some.mp h).1]
      · exact ih more hmore between own c' h
  obtain ⟨ts, between, hahead, h⟩ := bind_eq_some.mp h
  obtain ⟨-, rfl⟩ : c.rest = ts ∧ c = between := pure_eq_some.mp hahead
  obtain ⟨value, after, honce, h⟩ := bind_eq_some.mp h
  rcases climbOnce_cases honce with ⟨rfl, rfl⟩ | ⟨form, rfl, hform⟩
  · exact pure_eq_some.mp h
  · exact absurd ⟨text, rfl⟩ (hother _ form hform _ _ _ h)

/-- Where no attribute is ahead none is read, and the cursor stays. -/
theorem outerAttributes_eq_nil (hhash : atOperator "#" c.rest = false) :
    outerAttributes rules c = some ([], c) := by
  refine bind_eq_some.mpr ⟨c.rest, c, rfl, bind_eq_some.mpr ⟨none, c, ?_, rfl⟩⟩
  refine bind_eq_some.mpr ⟨false, c, ?_, rfl⟩
  rw [← hhash]
  rfl

/-- Where there is no prefix operator the reader has not moved. -/
theorem prefixOperator_false_eq (h : prefixOperator c = some (false, c')) : c = c' := by
  have htrue {p : Reader Bool} (hp : Yields p (· = true)) (h : p c = some (false, c')) : c = c' :=
    absurd (hp c false c' h) Bool.false_ne_true
  unfold prefixOperator at h
  rw [ahead_bind] at h
  split_ifs at h
  · refine htrue ?_ h
    repeat' first | exact .pure rfl | apply Yields.ite | refine .bind fun _ => ?_
  · cases hfound : ["*", "!", "-"].find? (atOperator · c.rest) with
    | some op =>
      rw [hfound] at h
      exact htrue (.bind fun _ => .pure rfl) h
    | none =>
      rw [hfound] at h
      exact (pure_eq_some.mp h).2

/-- An operand is a literal only if one is ahead, perhaps behind attributes. -/
theorem readOperand_literal (h : readOperand rules braces c = some (.literal text, c')) :
    atOperator "#" c.rest ∨ literal c = some (text, c') := by
  rw [or_iff_not_imp_left, Bool.not_eq_true]
  intro hhash
  obtain ⟨attributes, between, hattributes, h⟩ := bind_eq_some.mp h
  obtain ⟨rfl, rfl⟩ : [] = attributes ∧ c = between := by
    simpa [outerAttributes_eq_nil hhash] using hattributes
  obtain ⟨hasPrefix, after, hprefix, h⟩ := bind_eq_some.mp h
  cases hasPrefix with
  | true =>
    obtain ⟨_, _, -, hvalue⟩ := bind_eq_some.mp h
    exact nomatch (pure_eq_some.mp hvalue).1
  | false =>
    obtain rfl := prefixOperator_false_eq hprefix
    obtain ⟨first, behind, hatom, h⟩ := bind_eq_some.mp h
    obtain ⟨form, last, htrailing, h⟩ := bind_eq_some.mp h
    obtain ⟨_, _, hrequire, hvalue⟩ := bind_eq_some.mp h
    obtain ⟨rfl, rfl⟩ := pure_eq_some.mp hvalue
    obtain ⟨rfl, rfl⟩ := trailing_literal htrailing
    rw [← (require_eq_some hrequire).2]
    exact atom_literal hatom

/-- An expression is a literal only if one is ahead, perhaps behind attributes. -/
theorem expr_literal {n : Nat} (h : rulesUpTo n (.expr braces) c = some (.literal text, c')) :
    atOperator "#" c.rest ∨ literal c = some (text, c') := by
  cases n with
  | zero => exact nomatch h
  | succ n =>
    obtain ⟨left, between, hoperand, hclimb⟩ := bind_eq_some.mp h
    cases n with
    | zero => exact nomatch hoperand
    | succ n =>
      obtain ⟨rfl, rfl⟩ := readClimb_literal hclimb
      exact readOperand_literal hoperand

/-! ## Strings -/

/-- A string literal that is read stands ahead. Neither a truth value nor what begins with a minus
sign is a string. -/
theorem rest_of_literal (h : literal c = some (text, c')) (htext : Literal.isString text) :
    c.rest = .literal text :: c'.rest := by
  unfold literal at h
  obtain ⟨ts, between, hahead, h⟩ := bind_eq_some.mp h
  obtain ⟨hrest, rfl⟩ : c.rest = ts ∧ c = between := pure_eq_some.mp hahead
  rw [hrest]
  split at h
  case h_1 own rest =>
    obtain ⟨rfl, rfl⟩ : own = text ∧ _ = c' := by simpa using Option.some.inj h
    rfl
  case h_2 name rest =>
    obtain ⟨_, after, hrequire, h⟩ := bind_eq_some.mp h
    obtain ⟨rfl, -⟩ : name = text ∧ _ = c' := by simpa using Option.some.inj h
    have hname : name = "true" ∨ name = "false" := by simpa using (require_eq_some hrequire).1
    rcases hname with rfl | rfl
    · exact absurd htext (by decide)
    · exact absurd htext (by decide)
  case h_3 joint own rest =>
    obtain ⟨_, after, -, h⟩ := bind_eq_some.mp h
    obtain ⟨rfl, -⟩ : "-" ++ own = text ∧ _ = c' := by simpa using Option.some.inj h
    have hnone : Literal.stringValue? ("-" ++ own) = none := by
      rw [Literal.stringValue?, String.toList_append]
      rfl
    rw [Literal.isString, hnone] at htext
    exact nomatch htext
  case h_4 => exact nomatch h

/-- A literal is read as an expression where an expression ends. -/
theorem expr_of_literal {n : Nat} {ts : List Token} (hts : Stops braces ts)
    (written : List Token) (found : List Item) :
    rulesUpTo (n + 2) (.expr braces) ⟨.literal text :: ts, written, found⟩ =
      some (.literal text, ⟨ts, .literal text :: written, found⟩) := by
  rcases hts.cases with rfl | ⟨joint, more, rfl | rfl⟩ | ⟨rfl, body, more, rfl⟩ <;> rfl

end ServiceDispatch.Grammar
