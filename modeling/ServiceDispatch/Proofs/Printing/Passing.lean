import ServiceDispatch.Proofs.Printing.Kept

/-!
# Single tokens that are kept

A reader keeps tokens if it writes those that it reads, up to spacing, as long as they are settled.
The readers of single tokens do.
-/

namespace ServiceDispatch.Grammar

open Token (bareAll)

variable {α β : Type} {place place' : Place} {p p' : Reader α} {f : α → Reader β}
  {c mid c' : Cursor} {ts rest own out out' : List Token}

/-- Whether a cursor is behind another one, and the tokens between them are printed in this way. -/
def Passes (place : Place) (out : List Token) (c c' : Cursor) : Prop :=
  Kept place c.rest c'.rest out ∧ c'.written = out.reverse ++ c.written

/-- Whether a reader writes tokens for its value and keeps what it reads. -/
def Prints (place : Place) (p : Reader α) (own : α → List Token) : Prop :=
  ∀ c a c', p c = some (a, c') → isSettled c.rest → Passes place (own a) c c'

/-- Whether a reader keeps what it reads and stands for tokens by its value, whatever it writes. -/
def Builds (place : Place) (p : Reader α) (own : α → List Token) : Prop :=
  ∀ c a c', p c = some (a, c') → isSettled c.rest → Kept place c.rest c'.rest (own a)

/-- Whether a reader keeps tokens under a condition. -/
def KeepsIf (q : List Token → Prop) (place : Place) (p : Reader α) : Prop :=
  ∀ c a c', p c = some (a, c') → q c.rest → ∃ out, Passes place out c c'

/-- Whether a reader keeps tokens that are settled. -/
def Keeps (place : Place) (p : Reader α) : Prop := KeepsIf (isSettled ·) place p

/-! ## Passing -/

namespace Passes

/-- A cursor that does not move passes nothing. -/
theorem refl (place : Place) (c : Cursor) : Passes place [] c c := ⟨.refl place _, rfl⟩

/-- A cursor that goes on passes all tokens: those that it has passed before, and those behind them.
-/
theorem trans (h : Passes place out c mid) (hmore : Passes place out' mid c') :
    Passes place (out ++ out') c c' := by
  refine ⟨h.1.trans hmore.1, ?_⟩
  rw [hmore.2, h.2, List.reverse_append, List.append_assoc]

/-- What is passed in a type is passed in every place. -/
theorem of_type (h : Passes .type out c c') (place : Place) : Passes place out c c' :=
  ⟨h.1.of_type place, h.2⟩

/-- What is left of settled tokens is settled, so that the next reader may be asked about them. -/
theorem isSettled (h : Passes place out c c') (hc : isSettled c.rest) : isSettled c'.rest :=
  h.1.isSettled hc

end Passes

/-! ## Single tokens -/

/-- Tokens that are free can stand in every place. -/
theorem spans_of_all (h : own.all isFree) (place : Place) : Spans place own := by
  refine Spans.of_type ?_ place
  induction own with
  | nil => exact Balanced.nil
  | cons t own ih =>
    rw [List.all_cons, Bool.and_eq_true] at h
    exact Balanced.free h.1 (ih h.2)

/-- Spacing does not matter for whether tokens are free. -/
theorem all_isFree_bareAll (own : List Token) : (bareAll own).all isFree = own.all isFree := by
  induction own with
  | nil => rfl
  | cons t own ih =>
    rw [bareAll, List.all_cons, List.all_cons, ih]
    cases t <;> rfl

/-- The tokens of an operator are its characters, up to spacing. -/
theorem bareAll_operator (op : String) :
    bareAll (Token.operator op) = op.toList.map (.punct · false) := by
  have hchars (cs : List Char) : bareAll (cs.dropLast.map (.punct · true) ++
      cs.getLast?.toList.map (.punct · false)) = cs.map (.punct · false) := by
    induction cs with
    | nil => rfl
    | cons c cs ih =>
      cases cs with
      | nil => rfl
      | cons c' cs =>
        rw [List.dropLast_cons_cons, List.getLast?_cons_cons, List.map_cons, List.cons_append,
          bareAll, ih]
        rfl
  exact hchars op.toList

/-- An operator that is ahead stands there with its characters. -/
theorem exists_of_atOperator {op : String} (h : atOperator op ts) :
    ∃ own, ts = own ++ ts.drop op.length ∧ bareAll own = bareAll (Token.operator op) := by
  have hchars (cs : List Char) {ts : List Token} (h : atOperatorChars cs ts) :
      ∃ own, ts = own ++ ts.drop cs.length ∧ bareAll own = cs.map (.punct · false) := by
    induction cs generalizing ts with
    | nil => exact absurd h Bool.false_ne_true
    | cons c cs ih =>
      cases ts with
      | nil => cases cs <;> exact absurd h Bool.false_ne_true
      | cons t ts =>
        cases t with
        | punct d joint =>
          cases cs with
          | nil =>
            have hd : c = d ∧ ¬ d = '\'' := by simpa [atOperatorChars] using h
            exact ⟨[.punct d joint], rfl, by rw [hd.1]; rfl⟩
          | cons c' cs =>
            have hd : (c = d ∧ joint = true) ∧ atOperatorChars (c' :: cs) ts := by
              simpa [atOperatorChars] using h
            obtain ⟨own, hts, hown⟩ := ih hd.2
            refine ⟨.punct d joint :: own, ?_, ?_⟩
            · rw [List.length_cons, List.drop_succ_cons, List.cons_append, ← hts]
            · rw [bareAll, hown, hd.1.1]
              rfl
        | _ => cases cs <;> exact absurd h Bool.false_ne_true
  obtain ⟨own, hts, hown⟩ := hchars op.toList h
  refine ⟨own, ?_, ?_⟩
  · rwa [String.length_toList] at hts
  · rw [hown, bareAll_operator]

/-- What is a character up to spacing is that character. -/
theorem exists_of_bareAll_cons {c : Char} (h : bareAll own = .punct c false :: out) :
    ∃ joint own', own = .punct c joint :: own' ∧ bareAll own' = out := by
  cases own with
  | nil => exact nomatch h
  | cons t own =>
    obtain ⟨hbare, hout⟩ := List.cons.inj h
    cases t with
    | punct d joint =>
      obtain ⟨rfl, -⟩ := Token.punct.inj hbare
      exact ⟨joint, own, rfl, hout⟩
    | _ => exact nomatch hbare

/-- No group stands where an operator is ahead. -/
theorem atGroup_of_atOperator {op : String} (h : atOperator op ts) (d : Delimiter) :
    atGroup d ts = false := by
  cases ts with
  | nil => rfl
  | cons t ts =>
    cases t with
    | group e body =>
      have hchars (cs : List Char) : atOperatorChars cs (.group e body :: ts) = false := by
        rcases cs with _ | ⟨c, _ | ⟨c', cs⟩⟩ <;> rfl
      exact absurd ((hchars op.toList).symm.trans h) (by decide)
    | _ => rfl

/-- Whether an operator may stand in a place by itself. -/
def fits (place : Place) (op : String) : Bool :=
  (Token.operator op).all isFree || op == "->" || place == .code || (place == .list && op == ",")

/-- In code operators may stand by themselves. -/
theorem fits_code (op : String) : fits .code op := by simp [fits]

/-- An operator that is ahead is kept, if it may stand in the place by itself. -/
theorem kept_operator {op : String} (h : atOperator op ts) (hfits : fits place op) :
    Kept place ts (ts.drop op.length) (Token.operator op) := by
  obtain ⟨own, hts, hown⟩ := exists_of_atOperator h
  refine ⟨own, hts, ?_, hown.symm⟩
  simp only [fits, Bool.or_eq_true, Bool.and_eq_true, beq_iff_eq] at hfits
  rcases hfits with ((hfree | rfl) | rfl) | ⟨rfl, rfl⟩
  · refine spans_of_all ?_ place
    rw [← all_isFree_bareAll, hown, all_isFree_bareAll, hfree]
  · have htokens : bareAll own = [.punct '-' false, .punct '>' false] := hown
    obtain ⟨joint, own, rfl, hmore⟩ := exists_of_bareAll_cons htokens
    obtain ⟨joint', own, rfl, hnil⟩ := exists_of_bareAll_cons hmore
    obtain rfl := Token.bareAll_eq_nil.mp hnil
    exact Spans.of_type (Balanced.arrow .nil) place
  · trivial
  · have htokens : bareAll own = [.punct ',' false] := hown
    obtain ⟨joint, own, rfl, hnil⟩ := exists_of_bareAll_cons htokens
    obtain rfl := Token.bareAll_eq_nil.mp hnil
    exact Balanced.comma .nil

/-- An operator of one character is that character, whether another one is joined to it or not. -/
theorem exists_of_atOperator_char {op : String} {ch : Char}
    (hop : Token.operator op = [.punct ch false]) (hlength : op.length = 1) (h : atOperator op ts) :
    ∃ joint, ts = .punct ch joint :: ts.drop 1 := by
  obtain ⟨own, hts, hown⟩ := exists_of_atOperator h
  rw [hop] at hown
  obtain ⟨joint, own, rfl, hnil⟩ := exists_of_bareAll_cons hown
  obtain rfl := Token.bareAll_eq_nil.mp hnil
  rw [hlength] at hts
  exact ⟨joint, hts⟩

/-- A choice has a value of the reader that was chosen. -/
theorem ite_eq_some {choice : Prop} [Decidable choice] {r : α × Cursor}
    (h : (if choice then p else p') c = some r) :
    (choice ∧ p c = some r) ∨ (¬ choice ∧ p' c = some r) := by
  split at h
  case isTrue hchoice => exact .inl ⟨hchoice, h⟩
  case isFalse hchoice => exact .inr ⟨hchoice, h⟩

/-- A choice by what is ahead is made where the reader stands. -/
theorem ite_peek_eq_some {look : List Token → Bool} {r : α × Cursor}
    (h : (do if ← peek look then p else p') c = some r) :
    (look c.rest ∧ p c = some r) ∨ look c.rest = false ∧ p' c = some r := by
  have hchoice : (if look c.rest then p else p') c = some r := h
  rw [← Bool.not_eq_true]
  exact ite_eq_some hchoice

/-! ## Elementary readers -/

/-- What a reader prints it keeps, as it writes the tokens of its value. -/
theorem Prints.keeps {own : α → List Token} (h : Prints place p own) : Keeps place p :=
  fun c a c' hp hc => ⟨own a, h c a c' hp hc⟩

/-- An operator that was read stands ahead, and is written without the spacing that it had. -/
theorem operator_eq_some {op : String} (h : operator op c = some ((), c')) :
    atOperator op c.rest ∧ c'.rest = c.rest.drop op.length ∧
      c'.written = (Token.operator op).reverse ++ c.written := by
  rw [operator, ahead_bind] at h
  obtain ⟨_, between, hrequire, h⟩ := bind_eq_some.mp h
  obtain ⟨hop, rfl⟩ := require_eq_some hrequire
  obtain ⟨-, rfl⟩ := Prod.mk.inj (Option.some.inj h)
  exact ⟨hop, rfl, rfl⟩

/-- A word that was read stands ahead, and is written. -/
theorem word_eq_some {w : String} (h : word w c = some ((), c')) :
    c.rest = .ident w :: c'.rest ∧ c'.written = .ident w :: c.written := by
  obtain ⟨ts, written, found⟩ := c
  rw [word, ahead_bind] at h
  obtain ⟨_, between, hrequire, h⟩ := bind_eq_some.mp h
  obtain ⟨hw, rfl⟩ := require_eq_some hrequire
  obtain ⟨-, rfl⟩ := Prod.mk.inj (Option.some.inj h)
  cases ts with
  | nil => exact nomatch hw
  | cons t ts =>
    cases t with
    | ident name =>
      obtain rfl : name = w := beq_iff_eq.mp hw
      exact ⟨rfl, rfl⟩
    | _ => exact nomatch hw

/-- An operator is written as it was read, in every place into which it fits. -/
theorem prints_operator {op : String} (hfits : fits place op) :
    Prints place (operator op) fun _ => Token.operator op := by
  intro c _ c' h _
  obtain ⟨hop, hrest, hwritten⟩ := operator_eq_some h
  exact ⟨hrest ▸ kept_operator hop hfits, hwritten⟩

/-- Tokens behind an operator are settled with it, in whichever place it stands. -/
theorem isSettled_of_operator {op : String} (h : operator op c = some ((), c'))
    (hc : isSettled c.rest) : isSettled c'.rest :=
  (prints_operator (fits_code op) c () c' h hc).isSettled hc

/-- A word is written as it was read. -/
theorem prints_word (w : String) : Prints place (word w) fun _ => [.ident w] := by
  intro c _ c' h _
  obtain ⟨hrest, hwritten⟩ := word_eq_some h
  exact ⟨hrest ▸ .cons rfl place _, hwritten⟩

/-- Any word that was read stands ahead. -/
theorem anyWord_eq_some {name : String} (h : anyWord c = some (name, c')) :
    c.rest = .ident name :: c'.rest ∧ c'.written = .ident name :: c.written := by
  obtain ⟨ts, written, found⟩ := c
  rw [anyWord, ahead_bind] at h
  dsimp only at h
  split at h
  case h_1 name' rest =>
    obtain ⟨rfl, rfl⟩ := Prod.mk.inj (Option.some.inj h)
    exact ⟨rfl, rfl⟩
  case h_2 => exact nomatch h

/-- A name that was read stands ahead, as a word that is no keyword. -/
theorem name_eq_some {n : String} (h : name c = some (n, c')) :
    atName c.rest ∧ anyWord c = some (n, c') := by
  obtain ⟨_, between, hpeek, h⟩ := bind_eq_some.mp h
  obtain ⟨rfl, rfl⟩ := peek_eq_some hpeek
  obtain ⟨_, between, hrequire, h⟩ := bind_eq_some.mp h
  obtain ⟨hname, rfl⟩ := require_eq_some hrequire
  exact ⟨hname, h⟩

/-- A lifetime that was read stands ahead. -/
theorem lifetime_eq_some {name : String} (h : lifetime c = some (name, c')) :
    c.rest = .punct '\'' true :: .ident name :: c'.rest ∧
      c'.written = (Token.lifetime name).reverse ++ c.written := by
  obtain ⟨ts, written, found⟩ := c
  rw [lifetime, ahead_bind] at h
  dsimp only at h
  split at h
  case h_1 name' rest =>
    obtain ⟨rfl, rfl⟩ := Prod.mk.inj (Option.some.inj h)
    exact ⟨rfl, rfl⟩
  case h_2 => exact nomatch h

/-- A word is written as the value that is read. -/
theorem prints_anyWord : Prints place anyWord fun name => [.ident name] := by
  intro c name c' h _
  obtain ⟨hrest, hwritten⟩ := anyWord_eq_some h
  exact ⟨hrest ▸ .cons rfl place _, hwritten⟩

/-- A name is written as the value that is read, as it is a word. -/
theorem prints_name : Prints place name fun name => [.ident name] :=
  fun c n c' h hc => prints_anyWord c n c' (name_eq_some h).2 hc

/-- A lifetime is written with the quote in front of the name that is read. -/
theorem prints_lifetime : Prints place lifetime Token.lifetime := by
  intro c name c' h _
  obtain ⟨hrest, hwritten⟩ := lifetime_eq_some h
  exact ⟨hrest ▸ (Kept.cons rfl place _).trans (.cons rfl place _), hwritten⟩

/-- A form that may be missing was read if it is there, and else the reader does not move. -/
theorem optional_eq_some {p : Reader Unit} {look : List Token → Bool} {there : Bool}
    (h : (do if ← peek look then p; return true else return false) c = some (there, c')) :
    (there = true ∧ p c = some ((), c')) ∨ there = false ∧ look c.rest = false ∧ c = c' := by
  rcases ite_peek_eq_some h with ⟨-, h⟩ | ⟨hlook, h⟩
  · obtain ⟨_, after, hread, h⟩ := bind_eq_some.mp h
    obtain ⟨rfl, rfl⟩ := pure_eq_some.mp h
    exact .inl ⟨rfl, hread⟩
  · obtain ⟨rfl, rfl⟩ := pure_eq_some.mp h
    exact .inr ⟨rfl, hlook, rfl⟩

/-- Whether a form that may be missing is there is the value of its reader. -/
theorem Prints.optional {p : Reader Unit} (hp : Prints place p fun _ => own)
    (look : List Token → Bool) :
    Prints place (do if ← peek look then p; return true else return false)
      fun there => if there then own else [] := by
  intro c there c' h hc
  rcases optional_eq_some h with ⟨rfl, hread⟩ | ⟨rfl, -, rfl⟩
  · exact hp c () c' hread hc
  · exact .refl place c

/-- An operator that may be missing is written if it was there. -/
theorem prints_operator? {op : String} (hfits : fits place op) :
    Prints place (operator? op) fun there => if there then Token.operator op else [] :=
  (prints_operator hfits).optional _

/-- A word that may be missing is written if it was there. -/
theorem prints_word? (w : String) :
    Prints place (word? w) fun there => if there then [.ident w] else [] :=
  (prints_word w).optional _

/-- A lifetime that may be missing is written if one was there. -/
theorem prints_lifetime? : Prints place lifetime? fun name => name.elim [] Token.lifetime := by
  intro c value c' h hc
  rcases ite_peek_eq_some h with ⟨-, h⟩ | ⟨-, h⟩
  · obtain ⟨name, after, hread, h⟩ := bind_eq_some.mp h
    obtain ⟨rfl, rfl⟩ := pure_eq_some.mp h
    exact prints_lifetime c name after hread hc
  · obtain ⟨rfl, rfl⟩ := pure_eq_some.mp h
    exact .refl place c

/-- A literal is kept; a minus sign stands in front of a number. -/
theorem keeps_literal : Keeps place literal := by
  rintro ⟨ts, written, found⟩ text c' h _
  rw [literal, ahead_bind] at h
  dsimp only at h
  split at h
  case h_1 text' rest =>
    obtain ⟨-, rfl⟩ := Prod.mk.inj (Option.some.inj h)
    exact ⟨_, .cons rfl place _, rfl⟩
  case h_2 name rest =>
    obtain ⟨_, between, hrequire, h⟩ := bind_eq_some.mp h
    obtain ⟨-, rfl⟩ := require_eq_some hrequire
    obtain ⟨-, rfl⟩ := Prod.mk.inj (Option.some.inj h)
    exact ⟨_, .cons rfl place _, rfl⟩
  case h_3 joint text' rest _ =>
    obtain ⟨_, between, hrequire, h⟩ := bind_eq_some.mp h
    obtain ⟨-, rfl⟩ := require_eq_some hrequire
    obtain ⟨-, rfl⟩ := Prod.mk.inj (Option.some.inj h)
    exact ⟨[.punct '-' false, .literal text'], ⟨[.punct '-' joint, .literal text'], rfl,
      Spans.of_type (Balanced.negative .nil) place, rfl⟩, rfl⟩
  case h_4 => exact nomatch h

/-- A group that was read with whatever is in it stands ahead. -/
theorem anyGroup_eq_some {r : Delimiter × List Token} (h : anyGroup c = some (r, c')) :
    c.rest = .group r.1 r.2 :: c'.rest ∧ c'.written = .group r.1 r.2 :: c.written := by
  obtain ⟨ts, written, found⟩ := c
  rw [anyGroup, ahead_bind] at h
  dsimp only at h
  split at h
  case h_1 d body rest =>
    obtain ⟨rfl, rfl⟩ := Prod.mk.inj (Option.some.inj h)
    exact ⟨rfl, rfl⟩
  case h_2 => exact nomatch h

/-- A group is written with its brackets and the tokens that stood in it. -/
theorem prints_anyGroup : Prints place anyGroup fun r => [.group r.1 r.2] := by
  intro c r c' h _
  obtain ⟨hrest, hwritten⟩ := anyGroup_eq_some h
  exact ⟨hrest ▸ .cons rfl place _, hwritten⟩

end ServiceDispatch.Grammar
