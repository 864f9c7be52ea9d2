import ServiceDispatch.Proofs.Printing.Passing

/-!
# Readers that keep tokens

Readers that are put together from readers that keep tokens keep tokens, too: one after the other,
in a repetition or a list, in a group, and in silence if what was read is written afterwards.
-/

namespace ServiceDispatch.Grammar

open Token (bare bareAll)

variable {α β : Type} {place place' : Place} {p p' : Reader α} {r : Reader β}
  {f : α → Reader β} {c mid c' : Cursor} {ts rest own out out' : List Token}

/-! ## Combined readers -/

/-- Whether a condition on settled tokens holds of what is left if it holds of all. -/
structure IsLasting (q : List Token → Prop) : Prop where
  isSettled : ∀ {ts}, q ts → isSettled ts
  left : ∀ {own ts}, q (own ++ ts) → q ts

/-- Tokens that are left are settled, which is the weakest of the lasting conditions. -/
theorem isLasting_isSettled : IsLasting (isSettled ·) := ⟨id, isSettled_of_append⟩

/-- A lasting condition holds of what is left behind tokens that are passed. -/
theorem IsLasting.of_passes {q : List Token → Prop} (hq : IsLasting q)
    (h : Passes place out c c') (hc : q c.rest) : q c'.rest := by
  obtain ⟨own, hrest, -, -⟩ := h.1
  exact hq.left (hrest ▸ hc)

/-- Whether tokens are settled and nothing is found in the groups with one kind of brackets. -/
def SettledWithout (d : Delimiter) (look : List Token → Bool) (ts : List Token) : Prop :=
  isSettled ts ∧ ∀ body, .group d body ∈ ts → look body = false

/-- The groups in what is left are groups of the whole, so that nothing is found in them either. -/
theorem isLasting_settledWithout (d : Delimiter) (look : List Token → Bool) :
    IsLasting (SettledWithout d look) where
  isSettled h := h.1
  left h := ⟨isSettled_of_append h.1, fun body hbody => h.2 body (List.mem_append_right _ hbody)⟩

namespace KeepsIf

variable {q : List Token → Prop}

/-- A reader that keeps settled tokens keeps them under every lasting condition. -/
theorem of_keeps (hq : IsLasting q) (hp : Keeps place p) : KeepsIf q place p :=
  fun c a c' h hc => hp c a c' h (hq.isSettled hc)

/-- Reading nothing keeps all tokens. -/
theorem pure (a : α) : KeepsIf q place (pure a) := by
  intro c b c' h _
  obtain ⟨-, rfl⟩ := pure_eq_some.mp h
  exact ⟨[], .refl place c⟩

/-- A reader that always fails has nothing to keep. -/
theorem failure : KeepsIf q place (failure : Reader α) := nofun

/-- Two readers between which a choice is made both have to keep tokens. -/
theorem ite {choice : Prop} [Decidable choice] (hp : KeepsIf q place p)
    (hp' : KeepsIf q place p') : KeepsIf q place (if choice then p else p') := by
  split
  · exact hp
  · exact hp'

/-- Looking ahead keeps all tokens. -/
theorem peek (look : List Token → Bool) : KeepsIf q place (peek look) := by
  intro c held c' h _
  obtain ⟨-, rfl⟩ := peek_eq_some h
  exact ⟨[], .refl place c⟩

/-- Asking for the tokens ahead keeps all of them. -/
theorem ahead : KeepsIf q place ahead := by
  intro c ts c' h _
  obtain ⟨-, rfl⟩ := pure_eq_some.mp h
  exact ⟨[], .refl place c⟩

/-- Readers that keep tokens under a lasting condition keep them one after the other. -/
theorem bind (hq : IsLasting q) (hp : KeepsIf q place p) (hf : ∀ a, KeepsIf q place (f a)) :
    KeepsIf q place (p >>= f) := by
  intro c b c' h hc
  obtain ⟨a, mid, ha, h⟩ := bind_eq_some.mp h
  obtain ⟨out, hpass⟩ := hp c a mid ha hc
  obtain ⟨out', hpass'⟩ := hf a mid b c' h (hq.of_passes hpass hc)
  exact ⟨out ++ out', hpass.trans hpass'⟩

/-- Which tokens are kept does not depend on the value that is read. -/
theorem discard (hp : KeepsIf q place p) : KeepsIf q place (discard p) := by
  intro c _ c' h hc
  obtain ⟨a, ha⟩ := discard_eq_some h
  exact hp c a c' ha hc

/-- Elements that are kept are kept with the separators between them. -/
theorem separated (hq : IsLasting q) {separator : String} (hfits : fits place separator)
    (hp : KeepsIf q place p) (stop : List Token → Bool) :
    KeepsIf q place (separated stop separator p) := by
  have hoperator : KeepsIf q place (operator separator) := fun c _ c' h hc =>
    ⟨_, prints_operator hfits c _ c' h (hq.isSettled hc)⟩
  have hupTo (n : Nat) (done : List α) :
      KeepsIf q place (separatedUpTo stop separator p n done) := by
    induction n generalizing done with
    | zero => exact failure
    | succ n ih =>
      refine bind hq (peek stop) fun held => ite (pure _) ?_
      refine bind hq hp fun a => bind hq (peek stop) fun held' => ite (pure _) ?_
      exact bind hq hoperator fun _ => ih (a :: done)
  exact bind hq ahead fun _ => hupTo _ _

end KeepsIf

namespace Keeps

/-- Reading nothing keeps settled tokens. -/
theorem pure (a : α) : Keeps place (pure a) := KeepsIf.pure a

/-- A reader that always fails keeps settled tokens, as none are read. -/
theorem failure : Keeps place (failure : Reader α) := KeepsIf.failure

/-- Settled tokens are kept by a choice if both of its readers keep them. -/
theorem ite {choice : Prop} [Decidable choice] (hp : Keeps place p) (hp' : Keeps place p') :
    Keeps place (if choice then p else p') :=
  KeepsIf.ite hp hp'

/-- Asking for the tokens ahead keeps them. -/
theorem ahead : Keeps place ahead := KeepsIf.ahead

/-- Looking ahead keeps settled tokens. -/
theorem peek (look : List Token → Bool) : Keeps place (peek look) := KeepsIf.peek look

/-- A condition reads nothing: it holds, or the reader fails. -/
theorem require (held : Bool) : Keeps place (require held) := ite (pure ()) failure

/-- Readers that keep tokens keep them one after the other. -/
theorem bind (hp : Keeps place p) (hf : ∀ a, Keeps place (f a)) : Keeps place (p >>= f) :=
  KeepsIf.bind isLasting_isSettled hp hf

/-- Two readers keep tokens one behind the other if the second one does not ask what was read. -/
theorem before (hp : Keeps place p) (hr : Keeps place r) : Keeps place (p >>= fun _ => r) :=
  hp.bind fun _ => hr

/-- Tokens are kept if only a value is made of what was read. -/
theorem returning {g : α → β} (hp : Keeps place p) : Keeps place (do let a ← p; return g a) :=
  hp.bind fun a => pure (g a)

/-- A reader keeps the tokens whose value is not asked for. -/
theorem discard (hp : Keeps place p) : Keeps place (discard p) := KeepsIf.discard hp

/-- What is kept in a type is kept in every place. -/
theorem of_type (hp : Keeps .type p) (place : Place) : Keeps place p := by
  intro c a c' h hc
  obtain ⟨out, hpass⟩ := hp c a c' h hc
  exact ⟨out, hpass.of_type place⟩

/-! ### Single tokens -/

/-- An operator is kept in every place into which it fits. -/
theorem operator {op : String} (hfits : fits place op) : Keeps place (operator op) :=
  (prints_operator hfits).keeps

/-- An operator that may stand ahead is kept in every place into which it fits. -/
theorem operator? {op : String} (hfits : fits place op) : Keeps place (operator? op) :=
  (peek _).bind fun _ => ite (operator hfits).returning (pure false)

/-- A word is kept. -/
theorem word (w : String) : Keeps place (word w) := (prints_word w).keeps

/-- A word that may stand ahead is kept. -/
theorem word? (w : String) : Keeps place (word? w) :=
  (peek _).bind fun _ => ite (word w).returning (pure false)

/-- Every word is kept, whichever it is. -/
theorem anyWord : Keeps place anyWord := prints_anyWord.keeps

/-- A name is kept, as it is a word. -/
theorem name : Keeps place name := (peek _).bind fun _ => (require _).before anyWord

/-- A lifetime is kept. -/
theorem lifetime : Keeps place lifetime := prints_lifetime.keeps

/-- A lifetime that may stand ahead is kept. -/
theorem lifetime? : Keeps place lifetime? :=
  (peek _).bind fun _ => ite lifetime.returning (pure none)

/-- A string is kept, as it is a literal. -/
theorem stringLiteral : Keeps place stringLiteral :=
  (peek _).bind fun _ => (require _).before keeps_literal

/-- A group is kept whatever stands in it, as it is written unread. -/
theorem anyGroup : Keeps place anyGroup := prints_anyGroup.keeps

/-! ### Repetition -/

/-- A repetition keeps what each round keeps, by induction on the bound of the recursion. -/
theorem repeatStep {step : Reader (Option α)} (hstep : Keeps place step) :
    Keeps place (repeatStep step) := by
  have hupTo (n : Nat) (done : List α) : Keeps place (repeatUpTo step n done) := by
    induction n generalizing done with
    | zero => exact failure
    | succ n ih =>
      refine hstep.bind fun value => ?_
      cases value with
      | none => exact pure _
      | some a => exact ih (a :: done)
  exact ahead.bind fun _ => hupTo _ _

/-- A repetition under a condition keeps what each round keeps. -/
theorem repeatWhile (look : List Token → Bool) (hp : Keeps place p) :
    Keeps place (repeatWhile look p) :=
  repeatStep ((peek look).bind fun _ => ite hp.returning (pure none))

/-- A repetition to the end keeps what each round keeps. -/
theorem untilEnd (hp : Keeps place p) : Keeps place (untilEnd p) := repeatWhile _ hp

/-- Elements and the separators between them are kept if the separators fit into the place. -/
theorem separated {separator : String} (hfits : fits place separator) (hp : Keeps place p)
    (stop : List Token → Bool) : Keeps place (separated stop separator p) :=
  KeepsIf.separated isLasting_isSettled hfits hp stop

/-- In code a list with commas is kept if its elements are. -/
theorem commaList (hp : Keeps .code p) : Keeps .code (commaList p) := separated rfl hp _

/-- Elements that a separator joins are kept if the separator fits into the place. -/
theorem joined {separator : String} (hfits : fits place separator) (hp : Keeps place p)
    (stop : List Token → Bool) : Keeps place (joined stop separator p) := by
  have hupTo (n : Nat) (done : List α) : Keeps place (joinedUpTo stop separator p n done) := by
    induction n generalizing done with
    | zero => exact failure
    | succ n ih =>
      refine (peek stop).bind fun _ => ite (pure _) (hp.bind fun a => ?_)
      exact (operator? hfits).bind fun _ => ite (ih (a :: done)) (pure _)
  exact ahead.bind fun _ => hupTo _ _

/-- A loop over values keeps what each round keeps, whether or not it ends early. -/
theorem forIn {γ : Type} {step : γ → β → Reader (ForInStep β)}
    (hstep : ∀ x b, Keeps place (step x b)) (xs : List γ) (b : β) :
    Keeps place (ForIn.forIn xs b step) := by
  induction xs generalizing b with
  | nil => exact pure b
  | cons x xs ih =>
    rw [List.forIn_cons]
    refine (hstep x b).bind fun next => ?_
    cases next with
    | done b => exact pure b
    | yield b => exact ih b

/-- An attempt that fails reads nothing, and one that succeeds keeps what was read. -/
theorem attempt (hp : Keeps place p) : Keeps place (attempt p) := by
  intro c r c' h hc
  unfold Grammar.attempt at h
  split at h
  case h_1 a after ha =>
    obtain ⟨-, rfl⟩ := Prod.mk.inj (Option.some.inj h)
    exact hp c a after ha hc
  case h_2 =>
    obtain ⟨-, rfl⟩ := Prod.mk.inj (Option.some.inj h)
    exact ⟨[], .refl place c⟩

end Keeps

/-- Whether a reader keeps all tokens since a cursor, at which it may begin anew. -/
def KeepsSince (place : Place) (start : Cursor) (p : Reader α) : Prop :=
  ∀ c a c', p c = some (a, c') → (∃ out, Passes place out start c) →
    ∃ out, Passes place out start c'

namespace KeepsSince

variable {start : Cursor}

/-- A reader that keeps settled tokens keeps all tokens since a cursor at which they are settled. -/
theorem of_keeps (hp : Keeps place p) (hstart : isSettled start.rest) :
    KeepsSince place start p := by
  rintro c a c' h ⟨out, hpass⟩
  obtain ⟨out', hmore⟩ := hp c a c' h (hpass.isSettled hstart)
  exact ⟨_, hpass.trans hmore⟩

/-- One behind the other, readers keep all tokens since the same cursor. -/
theorem bind (hp : KeepsSince place start p) (hf : ∀ a, KeepsSince place start (f a)) :
    KeepsSince place start (p >>= f) := by
  intro c b c' h hc
  obtain ⟨a, mid, ha, h⟩ := bind_eq_some.mp h
  exact hf a mid b c' h (hp c a mid ha hc)

/-- Tokens since a cursor are kept by a choice if both of its readers keep them. -/
theorem ite {choice : Prop} [Decidable choice] (hp : KeepsSince place start p)
    (hp' : KeepsSince place start p') : KeepsSince place start (if choice then p else p') := by
  split
  · exact hp
  · exact hp'

/-- A reader that begins anew keeps what it reads then. -/
theorem restart (hp : Keeps place p) (hstart : isSettled start.rest) :
    KeepsSince place start (do set start; p) := by
  intro c a c' h _
  obtain ⟨_, _, hset, h⟩ := bind_eq_some.mp h
  obtain ⟨-, rfl⟩ := Prod.mk.inj (Option.some.inj hset)
  exact hp _ _ _ h hstart

end KeepsSince

/-- A reader that may begin anew keeps tokens if it keeps them since it began. -/
theorem Keeps.restarting {f : Cursor → Reader α}
    (hf : ∀ start, isSettled start.rest → KeepsSince place start (f start)) :
    Keeps place (get >>= f) :=
  fun c a c' h hc => hf c hc c a c' h ⟨[], .refl place c⟩

/-- A repetition has what it has at its end and what each round adds in front. -/
theorem repeatWhile_rec {look : List Token → Bool} {R : Cursor → List α → Cursor → Prop}
    (hnil : ∀ c, look c.rest = false → R c [] c)
    (hcons : ∀ c a mid as c', look c.rest → p c = some (a, mid) → R mid as c' → R c (a :: as) c')
    {as : List α} (h : repeatWhile look p c = some (as, c')) : R c as c' := by
  have hupTo (n : Nat) {done as : List α} {c : Cursor}
      (h : repeatUpTo (do if ← peek look then return some (← p) else return none) n done c =
        some (as, c')) : ∃ more, as = done.reverse ++ more ∧ R c more c' := by
    induction n generalizing done c with
    | zero => exact nomatch h
    | succ n ih =>
      obtain ⟨value, mid, hstep, h⟩ := bind_eq_some.mp h
      rcases ite_peek_eq_some hstep with ⟨hlook, hstep⟩ | ⟨hlook, hstep⟩
      · obtain ⟨a, after, ha, hstep⟩ := bind_eq_some.mp hstep
        obtain ⟨rfl, rfl⟩ := pure_eq_some.mp hstep
        obtain ⟨more, rfl, hmore⟩ := ih h
        exact ⟨a :: more, by simp, hcons c a after more c' hlook ha hmore⟩
      · obtain ⟨rfl, rfl⟩ := pure_eq_some.mp hstep
        obtain ⟨rfl, rfl⟩ := pure_eq_some.mp h
        exact ⟨[], (List.append_nil _).symm, hnil c hlook⟩
  rw [repeatWhile, repeatStep, ahead_bind] at h
  obtain ⟨more, rfl, hmore⟩ := hupTo _ h
  exact hmore

/-- A repetition writes what each round writes, and its values have what each of them has. -/
theorem passes_repeatWhile {own : α → List Token} {Q : α → Prop}
    (hp : ∀ c a c', p c = some (a, c') → isSettled c.rest → Passes place (own a) c c' ∧ Q a)
    {look : List Token → Bool} {as : List α} (h : repeatWhile look p c = some (as, c'))
    (hc : isSettled c.rest) : Passes place (as.flatMap own) c c' ∧ ∀ a ∈ as, Q a := by
  refine repeatWhile_rec (R := fun c as c' => isSettled c.rest →
    Passes place (as.flatMap own) c c' ∧ ∀ a ∈ as, Q a) ?_ ?_ h hc
  · exact fun c _ _ => ⟨.refl place c, List.forall_mem_nil _⟩
  · intro c a mid as c' _ ha ih hc
    obtain ⟨hpass, hQ⟩ := hp c a mid ha hc
    obtain ⟨hmore, hall⟩ := ih (hpass.isSettled hc)
    exact ⟨hpass.trans hmore, List.forall_mem_cons.mpr ⟨hQ, hall⟩⟩

/-- Nothing is joined only at the stop. -/
theorem stop_of_joined_nil {stop : List Token → Bool} {separator : String}
    (h : joined stop separator p c = some ([], c')) : stop c.rest := by
  have hlonger (n : Nat) {done as : List α} {c : Cursor}
      (h : joinedUpTo stop separator p n done c = some (as, c')) :
      done.length ≤ as.length ∧ (as.length = done.length → stop c.rest) := by
    induction n generalizing done c with
    | zero => exact nomatch h
    | succ n ih =>
      rcases ite_peek_eq_some h with ⟨hstop, h⟩ | ⟨-, h⟩
      · obtain ⟨rfl, rfl⟩ := pure_eq_some.mp h
        exact ⟨by simp, fun _ => hstop⟩
      · obtain ⟨a, after, -, h⟩ := bind_eq_some.mp h
        obtain ⟨there, behind, -, h⟩ := bind_eq_some.mp h
        have hmore : (a :: done).length ≤ as.length := by
          cases there with
          | true => exact (ih h).1
          | false =>
            obtain ⟨rfl, rfl⟩ := pure_eq_some.mp h
            simp
        rw [List.length_cons] at hmore
        exact ⟨by omega, fun heq => absurd heq (by omega)⟩
  rw [joined, ahead_bind] at h
  exact (hlonger _ h).2 rfl

/-! ## Groups -/

/-- A group that was read stands ahead, and its body was read to the end. -/
theorem group_eq_some {d : Delimiter} {a : α} (h : group d p c = some (a, c')) :
    ∃ body inner, c.rest = .group d body :: c'.rest ∧ p ⟨body, [], c.found⟩ = some (a, inner) ∧
      inner.rest = [] ∧ c'.written = .group d inner.written.reverse :: c.written := by
  obtain ⟨ts, written, found⟩ := c
  rw [group, ahead_bind] at h
  dsimp only at h
  split at h
  case h_1 e body rest =>
    obtain ⟨_, _, hrequire, h⟩ := bind_eq_some.mp h
    obtain ⟨hd, rfl⟩ := require_eq_some hrequire
    obtain rfl : d = e := beq_iff_eq.mp hd
    have hbody : (p ⟨body, [], found⟩).bind (fun r => (do
        require r.2.rest.isEmpty
        set { r.2 with rest, written := .group d r.2.written.reverse :: written }
        return r.1 : Reader α) r.2) = some (a, c') := h
    obtain ⟨⟨b, inner⟩, hp, h⟩ := Option.bind_eq_some_iff.mp hbody
    obtain ⟨_, _, hrequire, h⟩ := bind_eq_some.mp h
    obtain ⟨hend, rfl⟩ := require_eq_some hrequire
    obtain ⟨rfl, rfl⟩ := Prod.mk.inj (Option.some.inj h)
    exact ⟨body, inner, rfl, hp, List.isEmpty_iff.mp hend, rfl⟩
  case h_2 => exact nomatch h

/-- A group is kept if its body is, in every place, since no bracket or comma in it counts there. -/
theorem Kept.group {d : Delimiter} {body : List Token} (h : Kept .code body [] out) (place : Place)
    (ts : List Token) : Kept place (.group d body :: ts) ts [.group d out] := by
  obtain ⟨own, hbody, -, hown⟩ := h
  rw [List.append_nil] at hbody
  refine Kept.congr (Kept.cons rfl place ts) ?_
  simp [bareAll, bare, hown, hbody]

/-- A group is kept if its body is, under a condition that holds of the body. -/
theorem KeepsIf.group {q q' : List Token → Prop} {d : Delimiter} (hp : KeepsIf q .code p)
    (hq : ∀ {body ts}, q' (.group d body :: ts) → q body) (place : Place) :
    KeepsIf q' place (group d p) := by
  intro c a c' h hc
  obtain ⟨body, inner, hrest, ha, hend, hwritten⟩ := group_eq_some h
  rw [hrest] at hc
  obtain ⟨out, hkept, hout⟩ := hp _ _ _ ha (hq hc)
  have hinner : inner.written = out.reverse := by simpa using hout
  rw [hinner, List.reverse_reverse] at hwritten
  exact ⟨[.group d out], hrest ▸ Kept.group (hend ▸ hkept) place _, hwritten⟩

/-- A group is kept in every place if its body is kept in code. -/
theorem Keeps.group (hp : Keeps .code p) (d : Delimiter) : Keeps place (group d p) :=
  KeepsIf.group hp isSettled_body place

/-! ## Reading without writing -/

/-- What is captured was written to an empty sheet. -/
theorem captured_eq_some {a : α} (h : captured p c = some ((a, own), c')) :
    ∃ inner, p ⟨c.rest, [], c.found⟩ = some (a, inner) ∧ own = inner.written.reverse ∧
      c' = ⟨inner.rest, c.written, inner.found⟩ := by
  obtain ⟨b, inner, ha, h⟩ : ∃ b inner, p ⟨c.rest, [], c.found⟩ = some (b, inner) ∧
      some ((b, inner.written.reverse), (⟨inner.rest, c.written, inner.found⟩ : Cursor)) =
        some ((a, own), c') := bind_eq_some.mp h
  obtain ⟨hvalue, rfl⟩ := Prod.mk.inj (Option.some.inj h)
  obtain ⟨rfl, rfl⟩ := Prod.mk.inj hvalue
  exact ⟨inner, ha, rfl, rfl⟩

/-- What is read silently is read, and what was written before stays. -/
theorem silently_eq_some {a : α} (h : silently p c = some (a, c')) :
    ∃ inner, p c = some (a, inner) ∧ c' = { inner with written := c.written } := by
  obtain ⟨b, inner, ha, h⟩ : ∃ b inner, p c = some (b, inner) ∧
      some (b, ({ inner with written := c.written } : Cursor)) = some (a, c') := bind_eq_some.mp h
  obtain ⟨rfl, rfl⟩ := Prod.mk.inj (Option.some.inj h)
  exact ⟨inner, ha, rfl⟩

/-- What was read without writing is passed when it is written. -/
theorem Passes.of_write {u : Unit} (hwrite : write out mid = some (u, c'))
    (hwritten : mid.written = c.written) (h : Kept place c.rest mid.rest out) :
    Passes place out c c' := by
  obtain ⟨-, rfl⟩ := Prod.mk.inj (Option.some.inj hwrite)
  refine ⟨h, ?_⟩
  show out.reverse ++ mid.written = out.reverse ++ c.written
  rw [hwritten]

/-- What is captured from a reader that keeps tokens is kept. -/
theorem Keeps.captured (hp : Keeps place p) {a : α} (h : captured p c = some ((a, own), c'))
    (hc : isSettled c.rest) : Kept place c.rest c'.rest own ∧ c'.written = c.written := by
  obtain ⟨inner, ha, rfl, rfl⟩ := captured_eq_some h
  obtain ⟨out, hkept, hout⟩ := hp _ _ _ ha hc
  have hinner : inner.written = out.reverse := by simpa using hout
  rw [hinner, List.reverse_reverse]
  exact ⟨hkept, rfl⟩

/-- What is captured stands for itself. -/
theorem Keeps.builds_captured (hp : Keeps place p) : Builds place (Grammar.captured p) (·.2) :=
  fun _ _ _ h hc => (hp.captured h hc).1

/-- A value made of another one may stand for the same tokens. -/
theorem Builds.map {own : α → List Token} {g : α → β} {own' : β → List Token}
    (hp : Builds place p own) (hg : ∀ a, own' (g a) = own a) :
    Builds place (do let a ← p; return g a) own' := by
  intro c b c' h hc
  obtain ⟨a, mid, ha, h⟩ := bind_eq_some.mp h
  obtain ⟨rfl, rfl⟩ := pure_eq_some.mp h
  rw [hg]
  exact hp c a mid ha hc

/-- Tokens are kept that are written for a value after it was read silently. -/
theorem Builds.keeps_write {own : α → List Token} (hp : Builds place p own) {f : α → Reader β}
    (hf : ∀ a, ∃ more, f a = (do write (own a); more) ∧ Keeps place more) :
    Keeps place (Grammar.silently p >>= f) := by
  intro c b c' h hc
  obtain ⟨a, between, hread, h⟩ := bind_eq_some.mp h
  obtain ⟨after, ha, rfl⟩ := silently_eq_some hread
  obtain ⟨more, heq, hmore⟩ := hf a
  rw [heq] at h
  obtain ⟨_, mid, hwrite, h⟩ := bind_eq_some.mp h
  have hpass : Passes place (own a) c mid := .of_write hwrite rfl (hp c a after ha hc)
  obtain ⟨out, hafter⟩ := hmore _ _ _ h (hpass.isSettled hc)
  exact ⟨_, hpass.trans hafter⟩

/-- Capturing tokens and writing them keeps them, if nothing is written in between. -/
theorem Keeps.captured_write (hp : Keeps place p) {f : α × List Token → Reader β}
    (hf : ∀ a own, ∃ more, f (a, own) = (do write own; more) ∧ Keeps place more) :
    Keeps place (Grammar.captured p >>= f) := by
  intro c b c' h hc
  obtain ⟨⟨a, own⟩, between, ha, h⟩ := bind_eq_some.mp h
  obtain ⟨hkept, hwritten⟩ := hp.captured ha hc
  obtain ⟨more, heq, hmore⟩ := hf a own
  rw [heq] at h
  obtain ⟨_, mid, hwrite, h⟩ := bind_eq_some.mp h
  have hpass : Passes place own c mid := .of_write hwrite hwritten hkept
  obtain ⟨out, hafter⟩ := hmore _ _ _ h (hpass.isSettled hc)
  exact ⟨_, hpass.trans hafter⟩

/-- The tokens in front of what is left. -/
theorem Kept.take {start : List Token} (h : Kept place start rest out) :
    Kept place start rest (start.take (start.length - rest.length)) := by
  obtain ⟨own, rfl, hspans, hown⟩ := h
  refine ⟨own, rfl, hspans, ?_⟩
  rw [List.length_append, Nat.add_sub_cancel, List.take_left]

/-- A form that is kept as it is written is kept. -/
theorem Keeps.verbatim (hp : Keeps place p) : Keeps place (verbatim p) := by
  intro c a c' h hc
  obtain ⟨b, after, ha, h⟩ : ∃ b after, p c = some (b, after) ∧
      some (b, ({ c with
        rest := after.rest
        written := (c.rest.take (c.rest.length - after.rest.length)).reverse ++ c.written } :
          Cursor)) = some (a, c') := bind_eq_some.mp h
  obtain ⟨-, rfl⟩ := Prod.mk.inj (Option.some.inj h)
  obtain ⟨out, hkept, -⟩ := hp c b after ha hc
  exact ⟨_, hkept.take, rfl⟩

/-- A form that may be kept as it is written is kept. -/
theorem Keeps.orAsWritten {p : Reader (Option α)} (hp : Keeps place p) :
    Keeps place (orAsWritten p) := by
  intro c a c' h hc
  obtain ⟨start, _, hget, h⟩ := bind_eq_some.mp h
  obtain ⟨rfl, rfl⟩ := Prod.mk.inj (Option.some.inj hget)
  obtain ⟨value, after, ha, h⟩ := bind_eq_some.mp h
  obtain ⟨out, hpass⟩ := hp c value after ha hc
  cases value with
  | some a' =>
    obtain ⟨-, rfl⟩ := pure_eq_some.mp h
    exact ⟨out, hpass⟩
  | none =>
    obtain ⟨-, rfl⟩ := Prod.mk.inj (Option.some.inj h)
    exact ⟨_, hpass.1.take, rfl⟩

/-- Whether the items that are met count does not matter. -/
theorem Keeps.collecting (hp : Keeps place p) : Keeps place (collecting p) := by
  intro c a c' h hc
  obtain ⟨b, after, ha, h⟩ : ∃ b after, p { c with found := [] } = some (b, after) ∧
      some ((b, after.found.reverse), ({ after with found := c.found } : Cursor)) = some (a, c') :=
    bind_eq_some.mp h
  obtain ⟨-, rfl⟩ := Prod.mk.inj (Option.some.inj h)
  exact hp ⟨c.rest, c.written, []⟩ b after ha hc

/-! ## Lists -/

/-- What is read between angle brackets is kept with them. -/
theorem Kept.between {first last : Cursor} (hopen : operator "<" c = some ((), first))
    (h : Kept .list first.rest last.rest out) (hclose : operator ">" last = some ((), c'))
    (place : Place) :
    Kept place c.rest c'.rest (Token.operator "<" ++ out ++ Token.operator ">") := by
  obtain ⟨hat, hfirst, -⟩ := operator_eq_some hopen
  obtain ⟨hat', hrest, -⟩ := operator_eq_some hclose
  obtain ⟨joint, hc⟩ := exists_of_atOperator_char rfl rfl hat
  obtain ⟨joint', hlast⟩ := exists_of_atOperator_char rfl rfl hat'
  have hfirst : first.rest = c.rest.drop 1 := hfirst
  have hrest : c'.rest = last.rest.drop 1 := hrest
  rw [← hfirst] at hc
  rw [← hrest] at hlast
  rw [hlast] at h
  rw [hc]
  exact h.brackets place

/-- What is read between angle brackets is passed with them. -/
theorem Passes.brackets {first last : Cursor} (hopen : operator "<" c = some ((), first))
    (h : Passes .list out first last) (hclose : operator ">" last = some ((), c'))
    (place : Place) : Passes place (Token.operator "<" ++ out ++ Token.operator ">") c c' := by
  refine ⟨h.1.between hopen hclose place, ?_⟩
  rw [(operator_eq_some hclose).2.2, h.2, (operator_eq_some hopen).2.2]
  simp

/-- Elements with commas between them are a list. An empty list is read at the stop. -/
theorem listed_of_separated {stop : List Token → Bool} {values : List α} {trailing : Bool}
    (h : separated stop "," p c = some ((values, trailing), c')) :
    Listed (fun ts a rest => ∃ c c', p c = some (a, c') ∧ c.rest = ts ∧ c'.rest = rest)
      c.rest values trailing c'.rest ∧ (values = [] → stop c.rest) := by
  have hupTo (n : Nat) {done values : List α} {c : Cursor}
      (h : separatedUpTo stop "," p n done c = some ((values, trailing), c')) :
      ∃ more, values = done.reverse ++ more ∧
        ((more = [] ∧ trailing = !done.isEmpty ∧ stop c.rest ∧ c'.rest = c.rest) ∨
          more ≠ [] ∧ Listed (fun ts a rest => ∃ c c', p c = some (a, c') ∧ c.rest = ts ∧
            c'.rest = rest) c.rest more trailing c'.rest) := by
    induction n generalizing done c with
    | zero => exact nomatch h
    | succ n ih =>
      rcases ite_peek_eq_some h with ⟨hstop, h⟩ | ⟨-, h⟩
      · obtain ⟨hvalue, rfl⟩ := pure_eq_some.mp h
        obtain ⟨rfl, rfl⟩ := Prod.mk.inj hvalue
        exact ⟨[], (List.append_nil _).symm, .inl ⟨rfl, rfl, hstop, rfl⟩⟩
      · obtain ⟨a, after, ha, h⟩ := bind_eq_some.mp h
        rcases ite_peek_eq_some h with ⟨-, h⟩ | ⟨-, h⟩
        · obtain ⟨hvalue, rfl⟩ := pure_eq_some.mp h
          obtain ⟨rfl, rfl⟩ := Prod.mk.inj hvalue
          exact ⟨[a], List.reverse_cons, .inr ⟨nofun, .last ⟨c, after, ha, rfl, rfl⟩⟩⟩
        · obtain ⟨_, behind, hcomma, h⟩ := bind_eq_some.mp h
          obtain ⟨joint, hafter, -⟩ := operator_comma hcomma
          obtain ⟨more, rfl, ⟨rfl, rfl, -, hrest⟩ | ⟨hmore, hlisted⟩⟩ := ih h
          · exact ⟨[a], by simp, .inr ⟨nofun, .lastComma ⟨c, after, ha, rfl, hrest ▸ hafter⟩⟩⟩
          · obtain ⟨b, bs, rfl⟩ := List.exists_cons_of_ne_nil hmore
            exact ⟨a :: b :: bs, by simp,
              .inr ⟨nofun, .next ⟨c, after, ha, rfl, hafter⟩ hlisted⟩⟩
  obtain ⟨more, rfl, ⟨rfl, rfl, hstop, hrest⟩ | ⟨hmore, hlisted⟩⟩ := hupTo _ h
  · refine ⟨?_, fun _ => hstop⟩
    rw [hrest]
    exact .nil
  · exact ⟨hlisted, fun hnil => absurd hnil hmore⟩

end ServiceDispatch.Grammar
