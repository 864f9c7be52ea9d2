import ServiceDispatch.Proofs.Reading.Types

/-!
# What readers have done

A reader that had a value went through the places where its parts stopped. From the value of a
reader follow the values of its parts, and from these where it stood.
-/

namespace ServiceDispatch.Grammar

variable {α β : Type} {c c' : Cursor}

/-! ## Parts of readers -/

/-- A reader that goes on from another one starts where that one stopped. -/
theorem bind_eq_some {p : Reader α} {f : α → Reader β} {b : β} :
    (p >>= f) c = some (b, c') ↔
      ∃ a between, p c = some (a, between) ∧ f a between = some (b, c') := by
  show (p c).bind (fun r => f r.1 r.2) = some (b, c') ↔ _
  rw [Option.bind_eq_some_iff, Prod.exists]

/-- A value is returned where the reader stands, and nothing is read for it. -/
theorem pure_eq_some {a b : α} : (pure a : Reader α) c = some (b, c') ↔ a = b ∧ c = c' := by
  show some (a, c) = some (b, c') ↔ _
  rw [Option.some.injEq, Prod.mk.injEq]

/-- A reader goes on from where another one stopped, with its value. -/
theorem bind_of_eq {p : Reader α} {f : α → Reader β} {a : α} (h : p c = some (a, c')) :
    (p >>= f) c = f a c' := by
  show (p c).bind _ = _
  rw [h]
  rfl

/-- A value that is there may be dropped; the cursor has moved all the same. -/
theorem discard_of_eq {p : Reader α} {a : α} (h : p c = some (a, c')) :
    discard p c = some ((), c') := by
  show (p c).bind _ = _
  rw [h]
  rfl

/-- What is ahead is what a reader goes on with. -/
theorem ahead_bind {f : List Token → Reader α} (c : Cursor) : (ahead >>= f) c = f c.rest c := rfl

/-- A value that does not count is there, although it is not returned. -/
theorem discard_eq_some {p : Reader α} (h : discard p c = some ((), c')) :
    ∃ a, p c = some (a, c') := by
  have hbind : (p c).bind (fun r => some ((), r.2)) = some ((), c') := h
  obtain ⟨⟨a, after⟩, ha, hvalue⟩ := Option.bind_eq_some_iff.mp hbind
  obtain ⟨-, rfl⟩ := Prod.mk.inj (Option.some.inj hvalue)
  exact ⟨a, ha⟩

/-- A condition on what is ahead is decided where the reader stands. -/
theorem peek_eq_some {q : List Token → Bool} {held : Bool} (h : peek q c = some (held, c')) :
    q c.rest = held ∧ c = c' :=
  pure_eq_some.mp h

/-- A condition that is required holds, and does not move the reader. -/
theorem require_eq_some {q : Bool} (h : require q c = some ((), c')) : q ∧ c = c' := by
  unfold require at h
  split at h
  case isTrue hq => exact ⟨hq, (pure_eq_some.mp h).2⟩
  case isFalse => exact nomatch h

/-! ## All values of a reader -/

/-- Whether all values of a reader have a property. -/
def Yields (p : Reader α) (q : α → Prop) : Prop := ∀ c a c', p c = some (a, c') → q a

namespace Yields

variable {p p' : Reader α} {q : α → Prop}

/-- A value that has the property is yielded. -/
theorem pure {a : α} (ha : q a) : Yields (pure a) q := by
  intro c b c' h
  rwa [← (pure_eq_some.mp h).1]

/-- What a reader yields depends on its last part alone. -/
theorem bind {p : Reader β} {f : β → Reader α} (hf : ∀ b, Yields (f b) q) : Yields (p >>= f) q := by
  intro c a c' h
  obtain ⟨b, between, -, hb⟩ := bind_eq_some.mp h
  exact hf b between a c' hb

/-- A choice yields what both readers yield, whichever is chosen. -/
theorem ite {choice : Prop} [Decidable choice] (hp : Yields p q) (hp' : Yields p' q) :
    Yields (if choice then p else p') q := by
  split
  · exact hp
  · exact hp'

/-- A failure yields nothing. -/
theorem failure : Yields (failure : Reader α) q := nofun

end Yields

/-! ## Repetition -/

/-- A repetition that has no value stopped at once, in its first round. -/
theorem repeatStep_nil {step : Reader (Option α)} (h : repeatStep step c = some ([], c')) :
    step c = some (none, c') := by
  have hfront (n : Nat) (done : List α) : Yields (repeatUpTo step n done) (done.reverse <+: ·) := by
    induction n generalizing done with
    | zero => exact .failure
    | succ n ih =>
      refine .bind fun value => ?_
      cases value with
      | none => exact .pure List.prefix_rfl
      | some a =>
        intro c as c' h
        have hmore := ih (a :: done) c as c' h
        rw [List.reverse_cons] at hmore
        exact (List.prefix_append _ _).trans hmore
  rw [repeatStep, ahead_bind] at h
  obtain ⟨value, after, hstep, h⟩ := bind_eq_some.mp h
  cases value with
  | none =>
    obtain ⟨-, rfl⟩ := pure_eq_some.mp h
    exact hstep
  | some a => exact absurd (hfront _ [a] _ _ _ h) (by simp)

/-- A list of elements goes on in one of three ways: the reader is at the stop, it reads an element
and then is at the stop, or it reads an element and a separator and goes on. -/
theorem separatedUpTo_cases {stop : List Token → Bool} {separator : String} {item : Reader α}
    {n : Nat} {done values : List α} {trailing : Bool}
    (h : separatedUpTo stop separator item (n + 1) done c = some ((values, trailing), c')) :
    (stop c.rest ∧ values = done.reverse ∧ c = c') ∨
      stop c.rest = false ∧ ∃ a after, item c = some (a, after) ∧
        ((stop after.rest ∧ values = (a :: done).reverse ∧ after = c') ∨
          stop after.rest = false ∧ ∃ behind, operator separator after = some ((), behind) ∧
            separatedUpTo stop separator item n (a :: done) behind =
              some ((values, trailing), c')) := by
  obtain ⟨held, between, hpeek, h⟩ := bind_eq_some.mp h
  obtain ⟨hheld, rfl⟩ := peek_eq_some hpeek
  cases held with
  | true =>
    obtain ⟨hvalues, rfl⟩ := pure_eq_some.mp h
    exact .inl ⟨hheld, (Prod.mk.inj hvalues).1.symm, rfl⟩
  | false =>
    refine .inr ⟨hheld, ?_⟩
    obtain ⟨a, after, hitem, h⟩ := bind_eq_some.mp h
    refine ⟨a, after, hitem, ?_⟩
    obtain ⟨held, between, hpeek, h⟩ := bind_eq_some.mp h
    obtain ⟨hstop, rfl⟩ := peek_eq_some hpeek
    cases held with
    | true =>
      obtain ⟨hvalues, rfl⟩ := pure_eq_some.mp h
      exact .inl ⟨hstop, (Prod.mk.inj hvalues).1.symm, rfl⟩
    | false =>
      obtain ⟨_, behind, hseparator, h⟩ := bind_eq_some.mp h
      exact .inr ⟨hstop, behind, hseparator, h⟩

/-- What a list already has stays at its front, and another element follows unless the reader is at
the stop. -/
theorem separatedUpTo_prefix {stop : List Token → Bool} {separator : String} {item : Reader α}
    {n : Nat} {done values : List α} {trailing : Bool}
    (h : separatedUpTo stop separator item n done c = some ((values, trailing), c')) :
    ∃ more, values = done.reverse ++ more ∧ (stop c.rest = false → more ≠ []) := by
  induction n generalizing done c with
  | zero => exact nomatch h
  | succ n ih =>
    rcases separatedUpTo_cases h with ⟨hstop, rfl, -⟩ | ⟨-, a, after, -, hlast | hnext⟩
    · exact ⟨[], (List.append_nil _).symm, fun h => absurd (hstop.symm.trans h) (by decide)⟩
    · obtain ⟨-, rfl, -⟩ := hlast
      exact ⟨[a], List.reverse_cons, fun _ => List.cons_ne_nil _ _⟩
    · obtain ⟨-, behind, -, h⟩ := hnext
      obtain ⟨more, rfl, -⟩ := ih h
      refine ⟨a :: more, ?_, fun _ => List.cons_ne_nil _ _⟩
      rw [List.reverse_cons, List.append_assoc, List.singleton_append]

section Forward

variable {stop : List Token → Bool} {separator : String} {item : Reader α} {n : Nat}
  {done : List α} {a : α} {after behind : Cursor}

/-- A list ends at the stop; a separator stands at its end if it has elements. -/
theorem separatedUpTo_stop (hstop : stop c.rest) :
    separatedUpTo stop separator item (n + 1) done c =
      some ((done.reverse, !done.isEmpty), c) :=
  bind_eq_some.mpr ⟨true, c, pure_eq_some.mpr ⟨hstop, rfl⟩, rfl⟩

/-- A list ends with an element at the stop, without a separator behind it. -/
theorem separatedUpTo_last (hgo : stop c.rest = false) (hitem : item c = some (a, after))
    (hstop : stop after.rest) :
    separatedUpTo stop separator item (n + 1) done c =
      some (((a :: done).reverse, false), after) :=
  bind_eq_some.mpr ⟨false, c, pure_eq_some.mpr ⟨hgo, rfl⟩, bind_eq_some.mpr
    ⟨a, after, hitem, bind_eq_some.mpr ⟨true, after, pure_eq_some.mpr ⟨hstop, rfl⟩, rfl⟩⟩⟩

/-- A list goes on behind a separator, with one step less of the bound. -/
theorem separatedUpTo_next (hgo : stop c.rest = false) (hitem : item c = some (a, after))
    (hon : stop after.rest = false) (hseparator : operator separator after = some ((), behind)) :
    separatedUpTo stop separator item (n + 1) done c =
      separatedUpTo stop separator item n (a :: done) behind := by
  calc separatedUpTo stop separator item (n + 1) done c
      = _ := bind_of_eq (pure_eq_some.mpr ⟨hgo, rfl⟩)
    _ = _ := bind_of_eq hitem
    _ = _ := bind_of_eq (pure_eq_some.mpr ⟨hon, rfl⟩)
    _ = _ := bind_of_eq hseparator

end Forward

/-! ## Commas -/

/-- Where a comma is ahead its character is, with or without another one joined to it. -/
theorem exists_of_atComma {ts : List Token} (h : atOperator "," ts) :
    ∃ joint rest, ts = .punct ',' joint :: rest := by
  by_contra hnone
  push Not at hnone
  have hfalse : atOperator "," ts = false := by
    refine atOperator_eq_false rfl fun joint hhead => ?_
    obtain ⟨rest, hts⟩ := List.head?_eq_some_iff.mp hhead
    exact hnone joint rest hts
  exact absurd (hfalse.symm.trans h) (by decide)

/-- A comma that is read stands ahead, and no item is met in it. -/
theorem operator_comma (h : operator "," c = some ((), c')) :
    ∃ joint, c.rest = .punct ',' joint :: c'.rest ∧ c'.found = c.found := by
  obtain ⟨ts, written, found⟩ := c
  have hread := h
  rw [operator, ahead_bind] at hread
  obtain ⟨_, _, hrequire, -⟩ := bind_eq_some.mp hread
  obtain ⟨joint, rest, hts⟩ := exists_of_atComma (require_eq_some hrequire).1
  obtain rfl : ts = .punct ',' joint :: rest := hts
  obtain ⟨-, rfl⟩ := Prod.mk.inj (Option.some.inj h)
  exact ⟨joint, rfl, rfl⟩

/-- A comma is read if it is ahead, and otherwise the reader does not move. -/
theorem operator?_comma {held : Bool} (h : operator? "," c = some (held, c')) :
    (held = true ∧ ∃ joint, c.rest = .punct ',' joint :: c'.rest ∧ c'.found = c.found) ∨
      held = false ∧ c = c' := by
  obtain ⟨ahead, between, hpeek, h⟩ := bind_eq_some.mp h
  obtain ⟨-, rfl⟩ := peek_eq_some hpeek
  cases ahead with
  | true =>
    obtain ⟨_, after, hcomma, h⟩ := bind_eq_some.mp h
    obtain ⟨rfl, rfl⟩ := pure_eq_some.mp h
    exact .inl ⟨rfl, operator_comma hcomma⟩
  | false =>
    obtain ⟨rfl, rfl⟩ := pure_eq_some.mp h
    exact .inr ⟨rfl, rfl⟩

end ServiceDispatch.Grammar
