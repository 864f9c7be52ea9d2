import ServiceDispatch.Grammar.Source

/-!
# Tokens that printing does not change

A form that is read is printed in a normal form: lists and clauses without content vanish,
lifetimes come first in a list, numbers of fields are decimal, and the like. Here are the places
where this changes the tokens. Tokens without such places are settled.
-/

namespace ServiceDispatch

namespace Token

mutual

/-- A token whatever follows it: whether punctuation is joint is forgotten. -/
def bare : Token → Token
  | .punct c _ => .punct c false
  | .group d body => .group d (bareAll body)
  | t => t

/-- Tokens up to the spacing of their punctuation. -/
def bareAll : List Token → List Token
  | [] => []
  | t :: ts => t.bare :: bareAll ts

end

/-- Spacing is forgotten token by token. -/
@[simp]
theorem bareAll_append (ts ts' : List Token) : bareAll (ts ++ ts') = bareAll ts ++ bareAll ts' := by
  induction ts with
  | nil => rfl
  | cons t ts ih => rw [List.cons_append, bareAll, bareAll, ih, List.cons_append]

/-- Only nothing is nothing up to spacing. -/
@[simp]
theorem bareAll_eq_nil {ts : List Token} : bareAll ts = [] ↔ ts = [] := by
  cases ts <;> simp [bareAll]

end Token

namespace Grammar

open Token (bare bareAll)

variable {ts own rest : List Token}

/-! ## Lists in angle brackets -/

/-- The tokens behind attributes. -/
def pastAttributes : List Token → List Token
  | .punct '#' _ :: .group .bracket _ :: rest => pastAttributes rest
  | ts => ts

/-- Whether an argument that begins here is more than a lifetime with its bounds. -/
def startsOther (ts : List Token) : Bool :=
  !atLifetime (pastAttributes ts) || atOperator "+" (skipToken (pastAttributes ts))

/-- Whether a lifetime stands behind another argument in a list; `other` tells whether there has
been one, and `depth` counts the brackets that are open inside the list. -/
def isUnordered : Bool → Nat → List Token → Bool
  | other, depth, .punct '-' _ :: .punct '>' _ :: ts => isUnordered other depth ts
  | other, depth, .punct '<' _ :: ts => isUnordered other (depth + 1) ts
  | _, 0, .punct '>' _ :: _ => false
  | other, depth + 1, .punct '>' _ :: ts => isUnordered other depth ts
  | other, 0, .punct ',' _ :: ts =>
    (other && atLifetime (pastAttributes ts)) || isUnordered (other || startsOther ts) 0 ts
  | other, depth, _ :: ts => isUnordered other depth ts
  | _, _, [] => false

/-! ## What changes -/

/-- A `where` without conditions vanishes. -/
def losesClause (ts : List Token) : Bool := atWord "where" ts && atClauseEnd (ts.drop 1)

/-- Whether bounds end where they begin. -/
def endsBounds (ts : List Token) : Bool :=
  ts.isEmpty || atOperator "," ts || atOperator ">" ts || atOperator "=" ts ||
    atOperator ";" ts || atWord "where" ts || atGroup .brace ts

/-- A colon without bounds vanishes. -/
def losesBounds (ts : List Token) : Bool := atOperator ":" ts && endsBounds (ts.drop 1)

/-- Angle brackets without content vanish. -/
def losesBrackets (ts : List Token) : Bool := atOperator "<" ts && atOperator ">" (ts.drop 1)

/-- Lifetimes are moved to the front of a list. -/
def reordersList (ts : List Token) : Bool :=
  atOperator "<" ts && isUnordered (startsOther (ts.drop 1)) 0 (ts.drop 1)

/-- The separator in front of arguments in parentheses vanishes. -/
def losesColons (ts : List Token) : Bool := atOperator "::" ts && atGroup .paren (ts.drop 2)

/-- Whether an exclamation mark in front of a group stands somewhere ahead. -/
def invokes : List Token → Bool
  | .punct '!' _ :: .group _ _ :: _ => true
  | _ :: ts => invokes ts
  | [] => false

/-- The quantifier of an invocation vanishes. -/
def losesQuantifier (ts : List Token) : Bool :=
  atWord "for" ts && atOperator "<" (ts.drop 1) && invokes ts

/-- The old dots of a range are replaced; without an end they stand for further parameters. -/
def renewsDots (ts : List Token) : Bool :=
  atOperator "..." ts && !((ts.drop 3).isEmpty || atOperator "," (ts.drop 3))

/-- Whether the number of a field is printed as it is written. -/
def isDecimal (text : String) : Bool := (Literal.natValue? text).all (toString · == text)

/-- The number of a field is printed in decimal form, and a number with a dot as two of them. -/
def renewsNumber : List Token → Bool
  | .literal text :: ts => atOperator ":" ts && !isDecimal text
  | .punct '.' _ :: .literal text :: _ => Literal.isFloat text || !isDecimal text
  | _ => false

/-- The visibility of a variant vanishes. -/
def losesVisibility (ts : List Token) : Bool :=
  atWord "enum" ts && ts.any fun
    | .group .brace body => body.any fun t => atWord "pub" [t]
    | _ => false

/-- Whether a parameter that begins here is a type without a name. -/
def startsNameless (ts : List Token) : Bool :=
  atName (pastAttributes ts) && atOperator "<" ((pastAttributes ts).drop 1)

/-- Whether a parameter behind a comma is a type without a name. -/
def hasNameless : List Token → Bool
  | .punct ',' _ :: ts => startsNameless ts || hasNameless ts
  | _ :: ts => hasNameless ts
  | [] => false

/-- A parameter without a name gets one. -/
def namesParameter (ts : List Token) : Bool :=
  atWord "fn" ts && atAnyWord (ts.drop 1) && ts.any fun
    | .group .paren body => startsNameless body || hasNameless body
    | _ => false

/-- Whether something may change at the front. -/
def mayChange (ts : List Token) : Bool :=
  losesClause ts || losesBounds ts || losesBrackets ts || reordersList ts || losesColons ts ||
    losesQuantifier ts || renewsDots ts || renewsNumber ts || losesVisibility ts ||
    namesParameter ts

mutual

/-- Whether nothing may change inside a token. -/
def isSettledInside : Token → Bool
  | .group _ body => isSettled body
  | _ => true

/-- Whether nothing may change in tokens. -/
def isSettled : List Token → Bool
  | [] => true
  | t :: ts => !mayChange (t :: ts) && isSettledInside t && isSettled ts

end

/-- A service may be declared in the usual ways: lifetimes in front, conditions in its clause,
references in its fields. -/
example : isSettled [.ident "struct", .ident "S", .punct '<' false, .punct '\'' true, .ident "a",
    .punct ',' false, .ident "T", .punct '>' false, .ident "where", .ident "T", .punct ':' false,
    .ident "Copy", .group .brace [.ident "t", .punct ':' false, .punct '&' false, .punct '\'' true,
      .ident "a", .ident "T"]] := by decide

/-- What stands behind settled tokens is settled, as the condition holds at each of them. -/
theorem isSettled_of_append (h : isSettled (own ++ ts)) : isSettled ts := by
  induction own with
  | nil => exact h
  | cons t own ih =>
    rw [List.cons_append, isSettled, Bool.and_eq_true] at h
    exact ih h.2

/-- Nothing changes at the front. -/
structure Unchanged (ts : List Token) : Prop where
  clause : losesClause ts = false
  bounds : losesBounds ts = false
  brackets : losesBrackets ts = false
  order : reordersList ts = false
  colons : losesColons ts = false
  quantifier : losesQuantifier ts = false
  dots : renewsDots ts = false
  number : renewsNumber ts = false
  visibility : losesVisibility ts = false
  parameter : namesParameter ts = false

/-- Settled tokens do not change at the front, by any of the ways in which printing could change
them. -/
theorem unchanged_of_isSettled (h : isSettled ts) : Unchanged ts := by
  have hchange : mayChange ts = false := by
    cases ts with
    | nil => rfl
    | cons t ts =>
      rw [isSettled, Bool.and_eq_true, Bool.and_eq_true, Bool.not_eq_true'] at h
      exact h.1.1
  simp only [mayChange, Bool.or_eq_false_iff, and_assoc] at hchange
  obtain ⟨hclause, hbounds, hbrackets, horder, hcolons, hquantifier, hdots, hnumber, hvisibility,
    hparameter⟩ := hchange
  exact ⟨hclause, hbounds, hbrackets, horder, hcolons, hquantifier, hdots, hnumber, hvisibility,
    hparameter⟩

/-- The tokens of a group are settled with it, as the condition goes into groups. -/
theorem isSettled_body {d : Delimiter} {body : List Token} (h : isSettled (.group d body :: ts)) :
    isSettled body := by
  rw [isSettled, Bool.and_eq_true, Bool.and_eq_true] at h
  exact h.1.2

end Grammar

end ServiceDispatch
