import ServiceDispatch.Grammar.Reader

/-!
# What readers leave

A reader that succeeds on some tokens leaves some of them and has a value, whatever was written and
found before. Readers that follow each other go on from what was left.
-/

namespace ServiceDispatch.Grammar

variable {α β : Type} {p : Reader α} {f : α → Reader β} {ts rest after : List Token} {a : α} {b : β}

/-- Whether a reader leaves the rest of some tokens and has a value. -/
def Leaves (p : Reader α) (ts rest : List Token) (a : α) : Prop :=
  ∀ written found, ∃ written' found', p ⟨ts, written, found⟩ = some (a, ⟨rest, written', found'⟩)

namespace Leaves

/-- A value leaves all tokens. -/
theorem pure (a : α) (ts : List Token) : Leaves (Pure.pure a) ts ts a :=
  fun written found => ⟨written, found, rfl⟩

/-- A reader goes on from what another one left. -/
theorem bind (hp : Leaves p ts rest a) (hf : Leaves (f a) rest after b) :
    Leaves (p >>= f) ts after b := by
  intro written found
  obtain ⟨written', found', hp⟩ := hp written found
  obtain ⟨written'', found'', hf⟩ := hf written' found'
  refine ⟨written'', found'', ?_⟩
  show (p ⟨ts, written, found⟩).bind _ = _
  rw [hp]
  exact hf

/-- Looking ahead leaves all tokens. -/
theorem ahead (ts : List Token) : Leaves ahead ts ts ts :=
  fun written found => ⟨written, found, rfl⟩

/-- A condition that holds of what is ahead leaves all tokens. -/
theorem peek_true {q : List Token → Bool} (hq : q ts = true) : Leaves (peek q) ts ts true :=
  fun written found => ⟨written, found, hq ▸ rfl⟩

/-- A condition that fails of what is ahead leaves all tokens. -/
theorem peek_false {q : List Token → Bool} (hq : q ts = false) : Leaves (peek q) ts ts false :=
  fun written found => ⟨written, found, hq ▸ rfl⟩

/-- A condition that holds leaves all tokens. -/
theorem require {q : Bool} (hq : q) (ts : List Token) : Leaves (require q) ts ts () := by
  subst hq
  exact pure () ts

/-- Writing leaves all tokens. -/
theorem write (own ts : List Token) : Leaves (write own) ts ts () :=
  fun written found => ⟨own.reverse ++ written, found, rfl⟩

/-- An operator leaves what follows its characters. -/
theorem operator {op : String} {front : List Token} (hop : atOperator op (front ++ rest))
    (hlength : op.toList.length = front.length) :
    Leaves (operator op) (front ++ rest) rest () := by
  intro written found
  refine ⟨(Token.operator op).reverse ++ written, found, ?_⟩
  have hdrop : (front ++ rest).drop op.length = rest := by
    rw [← String.length_toList, hlength, List.drop_left]
  show ((Grammar.require (atOperator op (front ++ rest)) : Reader Unit) _).bind _ = _
  rw [hop]
  show some ((), Cursor.mk ((front ++ rest).drop op.length) _ _) = _
  rw [hdrop]

/-- An operator that is ahead is read. -/
theorem operator?_some {op : String} (hop : atOperator op ts)
    (hread : Leaves (Grammar.operator op) ts rest ()) : Leaves (operator? op) ts rest true :=
  bind (peek_true hop) (bind hread (pure true rest))

/-- An operator that is not ahead is not read. -/
theorem operator?_none {op : String} (hop : atOperator op ts = false) :
    Leaves (operator? op) ts ts false :=
  bind (peek_false hop) (pure false ts)

/-- A word is read. -/
theorem word (w : String) (ts : List Token) : Leaves (word w) (.ident w :: ts) ts () := by
  intro written found
  refine ⟨.ident w :: written, found, ?_⟩
  show ((Grammar.require (w == w) : Reader Unit) _).bind _ = _
  rw [beq_self_eq_true]
  rfl

/-- A word that is ahead is read. -/
theorem word?_some (w : String) (ts : List Token) : Leaves (word? w) (.ident w :: ts) ts true :=
  bind (peek_true (beq_self_eq_true w)) (bind (word w ts) (pure true ts))

/-- A word that is not ahead is not read. -/
theorem word?_none {w : String} (hw : atWord w ts = false) : Leaves (word? w) ts ts false :=
  bind (peek_false hw) (pure false ts)

/-- Any word is read. -/
theorem anyWord (name : String) (ts : List Token) : Leaves anyWord (.ident name :: ts) ts name :=
  fun written found => ⟨.ident name :: written, found, rfl⟩

/-- A name is read. -/
theorem name {name : String} (hname : name ∉ keywords) (ts : List Token) :
    Leaves Grammar.name (.ident name :: ts) ts name := by
  have hat : atName (.ident name :: ts) = true := by simpa [atName] using hname
  exact bind (peek_true hat) (bind (require rfl _) (anyWord name ts))

/-- A lifetime is read. -/
theorem lifetime (name : String) (ts : List Token) :
    Leaves lifetime (.punct '\'' true :: .ident name :: ts) ts name :=
  fun written found => ⟨(Token.lifetime name).reverse ++ written, found, rfl⟩

/-- Reading without writing leaves the same. -/
theorem silently (hp : Leaves p ts rest a) : Leaves (silently p) ts rest a := by
  intro written found
  obtain ⟨written', found', hp⟩ := hp written found
  refine ⟨written, found', ?_⟩
  show (p ⟨ts, written, found⟩).bind _ = _
  rw [hp]
  rfl

/-- A reader goes on whatever was captured, if it does so for all tokens. -/
theorem captured_bind {f : α × List Token → Reader β} (hp : Leaves p ts rest a)
    (hf : ∀ own, Leaves (f (a, own)) rest after b) : Leaves (captured p >>= f) ts after b := by
  intro written found
  obtain ⟨written', found', hp⟩ := hp [] found
  obtain ⟨written'', found'', hf⟩ := hf written'.reverse written found'
  refine ⟨written'', found'', ?_⟩
  show ((p ⟨ts, [], found⟩).bind _).bind _ = _
  rw [hp]
  exact hf

/-- A value that does not count leaves the same. -/
theorem discard (hp : Leaves p ts rest a) : Leaves (discard p) ts rest () := by
  intro written found
  obtain ⟨written', found', hp⟩ := hp written found
  refine ⟨written', found', ?_⟩
  show (p ⟨ts, written, found⟩).bind _ = _
  rw [hp]
  rfl

/-- A reader goes on whatever items were met, if it does so for all of them. -/
theorem collecting_bind {f : α × List Item → Reader β} (hp : Leaves p ts rest a)
    (hf : ∀ items, Leaves (f (a, items)) rest after b) :
    Leaves (collecting p >>= f) ts after b := by
  intro written found
  obtain ⟨written', found', hp⟩ := hp written []
  obtain ⟨written'', found'', hf⟩ := hf found'.reverse written' found
  refine ⟨written'', found'', ?_⟩
  show ((p ⟨ts, written, []⟩).bind _).bind _ = _
  rw [hp]
  exact hf

/-- A reader goes on from where it stands, whatever was written and met before. -/
theorem get_bind {f : Cursor → Reader β}
    (hf : ∀ written found, Leaves (f ⟨ts, written, found⟩) ts rest b) :
    Leaves (get >>= f) ts rest b :=
  fun written found => hf written found written found

/-- Moving to another place leaves what is ahead there, whatever was ahead before. -/
theorem set (c : Cursor) (ts : List Token) : Leaves (set c) ts c.rest PUnit.unit :=
  fun _ _ => ⟨c.written, c.found, rfl⟩

/-- A group is read if all its tokens are, and what stands behind it is left. -/
theorem group {d : Delimiter} (hp : Leaves p ts [] a) (rest : List Token) :
    Leaves (group d p) (.group d ts :: rest) rest a := by
  intro written found
  obtain ⟨written', found', hp⟩ := hp [] found
  refine ⟨.group d written'.reverse :: written, found', ?_⟩
  show ((Grammar.require (d == d) : Reader Unit) _).bind _ = _
  rw [beq_self_eq_true]
  show (p ⟨ts, [], found⟩).bind _ = _
  rw [hp]
  rfl

end Leaves

/-! ## What is written -/

/-- Whether a reader leaves the rest of some tokens, has a value, and writes some tokens. -/
def Writes (p : Reader α) (ts rest : List Token) (a : α) (own : List Token) : Prop :=
  ∀ written found, ∃ found',
    p ⟨ts, written, found⟩ = some (a, ⟨rest, own.reverse ++ written, found'⟩)

namespace Writes

variable {own own' : List Token}

/-- A value writes nothing. -/
theorem pure (a : α) (ts : List Token) : Writes (Pure.pure a) ts ts a [] :=
  fun _ found => ⟨found, rfl⟩

/-- A reader that goes on from what another one left writes behind it. -/
theorem bind (hp : Writes p ts rest a own) (hf : Writes (f a) rest after b own') :
    Writes (p >>= f) ts after b (own ++ own') := by
  intro written found
  obtain ⟨found', hp⟩ := hp written found
  obtain ⟨found'', hf⟩ := hf (own.reverse ++ written) found'
  refine ⟨found'', ?_⟩
  rw [List.reverse_append, List.append_assoc]
  show (p ⟨ts, written, found⟩).bind _ = _
  rw [hp]
  exact hf

/-- What goes on from a reader that writes nothing writes all. -/
theorem quiet_bind (hp : Writes p ts rest a []) (hf : Writes (f a) rest after b own) :
    Writes (p >>= f) ts after b own :=
  bind hp hf

/-- What goes on from a reader without writing leaves what it wrote. -/
theorem bind_quiet (hp : Writes p ts rest a own) (hf : Writes (f a) rest after b []) :
    Writes (p >>= f) ts after b own := by
  have hall := bind hp hf
  rwa [List.append_nil] at hall

/-- Looking ahead writes nothing. -/
theorem ahead (ts : List Token) : Writes ahead ts ts ts [] := fun _ found => ⟨found, rfl⟩

/-- A condition on what is ahead writes nothing. -/
theorem peek {q : List Token → Bool} {held : Bool} (hq : q ts = held) :
    Writes (peek q) ts ts held [] :=
  fun _ found => ⟨found, hq ▸ rfl⟩

/-- A condition that holds writes nothing. -/
theorem require {q : Bool} (hq : q) (ts : List Token) : Writes (require q) ts ts () [] := by
  subst hq
  exact pure () ts

/-- Tokens are written. -/
theorem write (own ts : List Token) : Writes (write own) ts ts () own := fun _ found => ⟨found, rfl⟩

/-- A word is written as it is read. -/
theorem word (w : String) (ts : List Token) :
    Writes (word w) (.ident w :: ts) ts () [.ident w] := by
  intro written found
  refine ⟨found, ?_⟩
  show ((Grammar.require (w == w) : Reader Unit) _).bind _ = _
  rw [beq_self_eq_true]
  rfl

/-- An operator that is not ahead is not written. -/
theorem operator?_none {op : String} (hop : atOperator op ts = false) :
    Writes (operator? op) ts ts false [] :=
  quiet_bind (peek hop) (pure false ts)

/-- What is read silently is not written. -/
theorem silently (hp : Leaves p ts rest a) : Writes (silently p) ts rest a [] := by
  intro written found
  obtain ⟨written', found', hp⟩ := hp written found
  refine ⟨found', ?_⟩
  show (p ⟨ts, written, found⟩).bind _ = _
  rw [hp]
  rfl

/-- What is written can be captured. -/
theorem captured (hp : Writes p ts rest a own) : Leaves (captured p) ts rest (a, own) := by
  intro written found
  obtain ⟨found', hp⟩ := hp [] found
  refine ⟨written, found', ?_⟩
  show (p ⟨ts, [], found⟩).bind _ = _
  rw [hp, List.append_nil]
  show some ((a, own.reverse.reverse), _) = _
  rw [List.reverse_reverse]

/-- A repetition that ends at once writes nothing, as its only round writes nothing. -/
theorem repeatStep_nil {step : Reader (Option α)} (hstop : Writes step ts ts none []) :
    Writes (repeatStep step) ts ts [] [] :=
  quiet_bind (ahead ts) (quiet_bind hstop (pure [] ts))

end Writes

/-! ## Failure -/

/-- Whether a reader fails on some tokens. -/
def Refuses (p : Reader α) (ts : List Token) : Prop :=
  ∀ written found, p ⟨ts, written, found⟩ = none

/-- An attempt that fails leaves all tokens, also those that it has read. -/
theorem Leaves.attempt_none (hp : Refuses p ts) : Leaves (attempt p) ts ts none := by
  intro written found
  refine ⟨written, found, ?_⟩
  rw [attempt, hp written found]

/-! ## Repetition -/

/-- Whether a reader has one value after the other until it has none. -/
inductive Steps (step : Reader (Option α)) : List Token → List Token → List α → Prop where
  | nil {ts rest : List Token} (hstop : Leaves step ts rest none) : Steps step ts rest []
  | cons {ts rest after : List Token} {a : α} {as : List α} (hgo : Leaves step ts rest (some a))
      (hmore : Steps step rest after as) : Steps step ts after (a :: as)

/-- A repetition ends if it is not longer than there are tokens. The bound of the recursion only has
to exceed the number of values. -/
theorem Leaves.repeatStep {step : Reader (Option α)} {as : List α} (h : Steps step ts rest as)
    (hlength : as.length ≤ ts.length) : Leaves (repeatStep step) ts rest as := by
  have hupTo : ∀ n (done : List α), as.length < n →
      Leaves (repeatUpTo step n done) ts rest (done.reverse ++ as) := by
    clear hlength
    induction h with
    | @nil ts rest hstop =>
      intro n done hn
      cases n with
      | zero => exact absurd hn (Nat.not_lt_zero _)
      | succ n =>
        rw [List.append_nil]
        exact bind hstop (pure done.reverse rest)
    | @cons ts rest after a as hgo hmore ih =>
      intro n done hn
      cases n with
      | zero => exact absurd hn (Nat.not_lt_zero _)
      | succ n =>
        have hrest := ih n (a :: done) (by simpa using hn)
        rw [List.reverse_cons, List.append_assoc, List.singleton_append] at hrest
        exact bind hgo hrest
  exact bind (ahead ts) (hupTo _ [] (by omega))

/-- Whether items are read as long as a condition holds of what is ahead. -/
inductive Repeats (q : List Token → Bool) (p : Reader α) :
    List Token → List Token → List α → Prop where
  | nil {ts : List Token} (hstop : q ts = false) : Repeats q p ts ts []
  | cons {ts rest after : List Token} {a : α} {as : List α} (hgo : q ts = true)
      (hitem : Leaves p ts rest a) (hmore : Repeats q p rest after as) :
      Repeats q p ts after (a :: as)

/-- Reading as long as a condition holds ends if there are not more items than tokens. -/
theorem Leaves.repeatWhile {q : List Token → Bool} {as : List α} (h : Repeats q p ts rest as)
    (hlength : as.length ≤ ts.length) : Leaves (repeatWhile q p) ts rest as := by
  refine repeatStep ?_ hlength
  clear hlength
  induction h with
  | @nil ts hstop => exact .nil (bind (peek_false hstop) (pure none ts))
  | @cons ts rest after a as hgo hitem hmore ih =>
    exact .cons (bind (peek_true hgo) (bind hitem (pure (some a) rest))) ih

/-- Whether items are read up to a stop, with a separator between each two of them. -/
inductive Separates (stop : List Token → Bool) (separator : String) (p : Reader α) :
    List Token → List Token → List α → Prop where
  | nil {ts : List Token} (hstop : stop ts = true) : Separates stop separator p ts ts []
  | last {ts rest : List Token} {a : α} (hgo : stop ts = false) (hitem : Leaves p ts rest a)
      (hstop : stop rest = true) : Separates stop separator p ts rest [a]
  | cons {ts rest after more : List Token} {a b : α} {bs : List α} (hgo : stop ts = false)
      (hitem : Leaves p ts rest a) (hon : stop rest = false)
      (hseparator : Leaves (operator separator) rest after ())
      (hmore : Separates stop separator p after more (b :: bs)) :
      Separates stop separator p ts more (a :: b :: bs)

/-- Separated items are read if there are not more of them than tokens. -/
theorem Leaves.separated {stop : List Token → Bool} {separator : String} {as : List α}
    (h : Separates stop separator p ts rest as) (hlength : as.length ≤ ts.length) :
    Leaves (separated stop separator p) ts rest (as, false) := by
  have hupTo : ∀ n (done : List α), as.length < n → (as = [] → done = []) →
      Leaves (separatedUpTo stop separator p n done) ts rest (done.reverse ++ as, false) := by
    clear hlength
    induction h with
    | @nil ts hstop =>
      intro n done hn hdone
      obtain rfl := hdone rfl
      cases n with
      | zero => exact absurd hn (Nat.not_lt_zero _)
      | succ n => exact bind (peek_true hstop) (pure _ ts)
    | @last ts rest a hgo hitem hstop =>
      intro n done hn _
      cases n with
      | zero => exact absurd hn (Nat.not_lt_zero _)
      | succ n =>
        rw [← List.reverse_cons]
        exact bind (peek_false hgo) (bind hitem (bind (peek_true hstop) (pure _ rest)))
    | @cons ts rest after more a b bs hgo hitem hon hseparator hmore ih =>
      intro n done hn _
      cases n with
      | zero => exact absurd hn (Nat.not_lt_zero _)
      | succ n =>
        have hrest := ih n (a :: done) (by simpa using hn) (nomatch ·)
        rw [List.reverse_cons, List.append_assoc, List.singleton_append] at hrest
        exact bind (peek_false hgo) (bind hitem (bind (peek_false hon) (bind hseparator hrest)))
  exact bind (ahead ts) (hupTo _ [] (by omega) fun _ => rfl)

end ServiceDispatch.Grammar
