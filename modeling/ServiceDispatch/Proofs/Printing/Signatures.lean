import ServiceDispatch.Grammar.Functions
import ServiceDispatch.Proofs.Printing.Types

/-!
# Generic parameters and signatures that are kept

Bounds, clauses and generic parameters are printed where they have a content, which they have in
settled tokens. A signature is kept if no parameter in it gets a name.
-/

namespace ServiceDispatch.Grammar

variable {α β : Type} {rules : Rules} {c c' : Cursor} {ts rest own out : List Token}

/-! ## Bounds -/

/-- Bounds are kept: a colon without bounds would not be settled. -/
theorem keeps_colonBounds {item : Reader Unit} (hitem : Keeps .type item)
    {stop : List Token → Bool} (hstop : ∀ ts, stop ts → endsBounds ts) :
    Keeps .type (colonBounds stop item) := by
  intro c held c' h hc
  obtain ⟨there, mid, hread, h⟩ := bind_eq_some.mp h
  obtain ⟨after, hcolon, rfl⟩ := silently_eq_some hread
  rcases optional_eq_some hcolon with ⟨rfl, hsign⟩ | ⟨rfl, -, rfl⟩
  · have hpass : Passes .type (Token.operator ":") c after := prints_operator rfl _ _ _ hsign hc
    have hafter := hpass.isSettled hc
    obtain ⟨⟨bounds, tokens⟩, last, hbounds, h⟩ := bind_eq_some.mp h
    obtain ⟨hkept, hwritten⟩ := (Keeps.joined rfl hitem stop).captured hbounds hafter
    have hempty : bounds.isEmpty = false := by
      rw [List.isEmpty_eq_false_iff]
      rintro rfl
      obtain ⟨inner, hjoined, -⟩ := captured_eq_some hbounds
      have hends := hstop _ (stop_of_joined_nil hjoined)
      dsimp only at hends
      obtain ⟨hat, hafter, -⟩ := operator_eq_some hsign
      have hbounds := (unchanged_of_isSettled hc).bounds
      rw [hafter] at hends
      exact absurd (hbounds.symm.trans (Bool.and_eq_true_iff.mpr ⟨hat, hends⟩)) (by decide)
    dsimp only at h
    rw [hempty] at h
    obtain ⟨_, _, hwrite, h⟩ := bind_eq_some.mp h
    obtain ⟨-, rfl⟩ := pure_eq_some.mp h
    exact ⟨_, .of_write hwrite hwritten (hpass.1.trans hkept)⟩
  · obtain ⟨-, rfl⟩ := pure_eq_some.mp h
    exact ⟨[], .refl .type c⟩

/-- A bound of a parameter is kept, be it a trait or a lifetime. -/
theorem keeps_paramBound (h : rules.Keep) : Keeps .type (paramBound rules) :=
  (keeps_genericBound h false true).discard

/-! ## Generic parameters -/

/-- Reading attributes goes past them, to what stands ahead without them. -/
theorem rest_of_outerAttributes {attributes : List Attribute}
    (h : outerAttributes rules c = some (attributes, c')) : c'.rest = pastAttributes c.rest := by
  refine repeatWhile_rec (R := fun c _ c' => c'.rest = pastAttributes c.rest)
    (fun c hnone => (pastAttributes_eq_self hnone).symm) ?_ h
  intro c _ mid _ c' _ hread hmore
  obtain ⟨_, between, hsign, hread⟩ := bind_eq_some.mp hread
  obtain ⟨body, inner, hrest, -, -, -⟩ := group_eq_some hread
  obtain ⟨hat, hbetween, -⟩ := operator_eq_some hsign
  obtain ⟨joint, hc⟩ := exists_of_atOperator_char rfl rfl hat
  have hbetween : between.rest = c.rest.drop 1 := hbetween
  rw [← hbetween, hrest] at hc
  rw [hmore, hc]
  rfl

/-- A generic parameter is kept: a lifetime or a type with its bounds, or a constant with its type.
Where a reader of bounds stops they end, so that their colon has a content. -/
theorem keeps_genericParam (h : rules.Keep) : Keeps .type (genericParam rules) := by
  have hlifetime : Keeps .type (discard lifetime) := Keeps.lifetime.discard
  have hlifetimes : Keeps .type (colonBounds
      (fun ts => ts.isEmpty || atOperator "," ts || atOperator ">" ts) (discard lifetime)) := by
    refine keeps_colonBounds hlifetime fun ts hstop => ?_
    simp only [Bool.or_eq_true, or_assoc] at hstop
    rcases hstop with h | h | h <;> simp [endsBounds, h]
  have hbounds : Keeps .type (colonBounds atParamBoundsEnd (paramBound rules)) := by
    refine keeps_colonBounds (keeps_paramBound h) fun ts hstop => ?_
    simp only [atParamBoundsEnd, Bool.or_eq_true, or_assoc] at hstop
    rcases hstop with h | h | h | h <;> simp [endsBounds, h]
  refine (keeps_outerAttributes h).discard.before ?_
  refine Keeps.ahead.bind fun _ => .ite ?lifetime (.ite ?constant ?other)
  case lifetime => exact hlifetime.before hlifetimes.discard.returning
  case constant =>
    refine (Keeps.word "const").before ?_
    refine Keeps.name.discard.before ?_
    refine (Keeps.operator rfl).before ?_
    refine h.plusType.discard.before ?_
    exact (Keeps.operator? rfl).bind fun _ => .ite (keeps_constArgument h).returning (.pure false)
  case other =>
    refine .ite (Keeps.word "_").returning ?_
    refine Keeps.name.discard.before ?_
    refine hbounds.discard.before ?_
    exact (Keeps.operator? rfl).bind fun _ => .ite h.plusType.discard.returning (.pure false)

/-- A parameter is marked as a lifetime if one stands behind its attributes. -/
theorem fitsMark_genericParam {isLifetime : Bool}
    (h : genericParam rules c = some (isLifetime, c')) : FitsMark isLifetime c.rest := by
  obtain ⟨_, mid, hattributes, h⟩ := bind_eq_some.mp h
  obtain ⟨attributes, hattributes⟩ := discard_eq_some hattributes
  have hmid := rest_of_outerAttributes hattributes
  rw [ahead_bind, hmid] at h
  rcases ite_eq_some h with ⟨hlifetime, h⟩ | ⟨hother, h⟩
  · have hmark : isLifetime = true :=
      Yields.bind (q := (· = true)) (fun _ => .bind fun _ => .pure rfl) _ _ _ h
    rwa [hmark]
  · have hmark : isLifetime = false := by
      have hend {p : Reader Unit} : Yields (do
          if ← operator? "=" then p
          return false) (· = false) := .bind fun _ => .ite (.bind fun _ => .pure rfl) (.pure rfl)
      refine Yields.ite (q := (· = false)) ?constant (.ite ?wildcard ?named) _ _ _ h
      case constant => exact .bind fun _ => .bind fun _ => .bind fun _ => .bind fun _ => hend
      case wildcard => exact .bind fun _ => .pure rfl
      case named => exact .bind fun _ => .bind fun _ => hend
    rw [Bool.not_eq_true] at hother
    rw [hmark]
    show startsOther c.rest = true
    rw [startsOther, hother]
    rfl

/-- A generic parameter that is captured is kept, and it is marked where it is a lifetime. -/
theorem buildsArg_genericParam (h : rules.Keep) : BuildsArg (captured (genericParam rules)) id := by
  intro c r c' hread hc
  obtain ⟨inner, hparam, -⟩ := captured_eq_some hread
  have hmark := fitsMark_genericParam hparam
  exact ⟨((keeps_genericParam h).captured hread hc).1, hmark⟩

/-- Generic parameters are kept with their brackets, which are not empty in settled tokens. A
declaration without brackets has none to keep. -/
theorem keeps_genericParams (h : rules.Keep) : Keeps .code (genericParams rules) := by
  refine (Keeps.peek _).bind fun _ => .ite (.pure _) ?_
  intro c _ c' hread hc
  obtain ⟨_, between, hsilent, hread⟩ := bind_eq_some.mp hread
  obtain ⟨after, hparams, rfl⟩ := silently_eq_some hsilent
  obtain ⟨_, first, hopen, hparams⟩ := bind_eq_some.mp hparams
  obtain ⟨⟨params, trailing⟩, last, hlist, hparams⟩ := bind_eq_some.mp hparams
  obtain ⟨_, behind, hclose, hparams⟩ := bind_eq_some.mp hparams
  obtain ⟨rfl, rfl⟩ := pure_eq_some.mp hparams
  obtain ⟨hkept, hvalues⟩ := kept_list (buildsArg_genericParam h) hc hopen hlist
  rw [List.map_id] at hkept
  dsimp only at hread
  rw [List.isEmpty_eq_false_iff.mpr hvalues] at hread
  obtain ⟨_, _, hwrite, hread⟩ := bind_eq_some.mp hread
  obtain ⟨-, rfl⟩ := pure_eq_some.mp hread
  exact ⟨_, .of_write hwrite rfl (hkept.between hopen hclose .code)⟩

/-! ## Clauses -/

/-- Whether a reader writes something. -/
def Advances (p : Reader α) : Prop :=
  ∀ c a c', p c = some (a, c') → isSettled c.rest → ∃ out, out ≠ [] ∧ Passes .code out c c'

namespace Advances

variable {p : Reader α} {f : α → Reader β}

/-- An operator is written if it has a character. -/
theorem operator {op : String} (hop : Token.operator op ≠ []) : Advances (operator op) :=
  fun c _ c' h hc => ⟨_, hop, prints_operator (fits_code op) c _ c' h hc⟩

/-- A choice writes something if both of its readers do. -/
theorem ite {p' : Reader α} {choice : Prop} [Decidable choice] (hp : Advances p)
    (hp' : Advances p') : Advances (if choice then p else p') := by
  split
  · exact hp
  · exact hp'

/-- A reader writes something if it does so in the end. -/
theorem bind_right (hp : Keeps .code p) (hf : ∀ a, Advances (f a)) : Advances (p >>= f) := by
  intro c b c' h hc
  obtain ⟨a, mid, ha, h⟩ := bind_eq_some.mp h
  obtain ⟨out, hpass⟩ := hp c a mid ha hc
  obtain ⟨out', hne, hmore⟩ := hf a mid b c' h (hpass.isSettled hc)
  exact ⟨_, by simp [hne], hpass.trans hmore⟩

/-- A reader writes something if it does so in the beginning. -/
theorem bind_left (hp : Advances p) (hf : ∀ a, Keeps .code (f a)) : Advances (p >>= f) := by
  intro c b c' h hc
  obtain ⟨a, mid, ha, h⟩ := bind_eq_some.mp h
  obtain ⟨out, hne, hpass⟩ := hp c a mid ha hc
  obtain ⟨out', hmore⟩ := hf a mid b c' h (hpass.isSettled hc)
  exact ⟨_, by simp [hne], hpass.trans hmore⟩

/-- What writes something keeps what it reads. -/
theorem keeps (hp : Advances p) : Keeps .code p := fun c a c' h hc =>
  let ⟨out, _, hpass⟩ := hp c a c' h hc
  ⟨out, hpass⟩

end Advances

/-- A condition writes something, as it has a colon. In front of it stands a lifetime or a type,
perhaps with a quantifier. -/
theorem advances_wherePredicate (h : rules.Keep) : Advances (wherePredicate rules) := by
  have hcolon {more : Reader Unit} (hmore : Keeps .code more) :
      Advances (do operator ":"; more) :=
    .bind_left (.operator nofun) fun _ => hmore
  have hbounds : Keeps .code (discard (joined atClauseEnd "+" (paramBound rules))) :=
    (Keeps.joined rfl ((keeps_paramBound h).of_type .code) _).discard
  have htype : Advances (do
      discard rules.type
      operator ":"
      discard (joined atClauseEnd "+" (paramBound rules))) :=
    .bind_right h.plusType.discard fun _ => hcolon hbounds
  refine .bind_right Keeps.ahead fun _ => .ite (.bind_right Keeps.lifetime.discard fun _ => ?_) ?_
  · exact hcolon (Keeps.joined rfl Keeps.lifetime.discard _).discard
  · exact .ite (.bind_right ((keeps_boundLifetimes h).of_type .code) fun _ => htype) htype

/-- Conditions are kept with the commas between them, by induction on the bound of the recursion. -/
theorem keeps_wherePredicates (h : rules.Keep) (n : Nat) :
    Keeps .code (wherePredicates rules n) := by
  induction n with
  | zero => exact .failure
  | succ n ih =>
    have hmore : Keeps .code (do if ← operator? "," then wherePredicates rules n) :=
      (Keeps.operator? rfl).bind fun _ => .ite ih (.pure ())
    refine (Keeps.peek _).bind fun _ => .ite (.pure ()) ?_
    exact (advances_wherePredicate h).keeps.before hmore

/-- Conditions that were read are printed unless they have ended at once. -/
theorem written_wherePredicates (h : rules.Keep) {n : Nat}
    (hread : wherePredicates rules n c = some ((), c')) (hc : isSettled c.rest)
    (hgo : atClauseEnd c.rest = false) : ∃ out, out ≠ [] ∧ Passes .code out c c' := by
  cases n with
  | zero => exact nomatch hread
  | succ n =>
    rcases ite_peek_eq_some hread with ⟨hend, -⟩ | ⟨-, hread⟩
    · exact absurd (hgo.symm.trans hend) (by decide)
    · refine Advances.bind_left (advances_wherePredicate h) (fun _ => ?_) _ _ _ hread hc
      exact (Keeps.operator? rfl).bind fun _ => .ite (keeps_wherePredicates h n) (.pure _)

/-- A clause is kept: one without conditions would not be settled. -/
theorem keeps_whereClause (h : rules.Keep) : Keeps .code (whereClause rules) := by
  intro c held c' hread hc
  obtain ⟨there, mid, hsilent, hread⟩ := bind_eq_some.mp hread
  obtain ⟨after, hword, rfl⟩ := silently_eq_some hsilent
  rcases optional_eq_some hword with ⟨rfl, hwhere⟩ | ⟨rfl, -, rfl⟩
  · have hpass : Passes .code [.ident "where"] c after := prints_word _ _ _ _ hwhere hc
    have hafter := hpass.isSettled hc
    have hwhere : c.rest = .ident "where" :: after.rest := (word_eq_some hwhere).1
    obtain ⟨⟨_, tokens⟩, last, hclause, hread⟩ := bind_eq_some.mp hread
    obtain ⟨inner, hpredicates, rfl, rfl⟩ := captured_eq_some hclause
    rw [ahead_bind] at hpredicates
    have hgo : atClauseEnd after.rest = false := by
      have hclause := (unchanged_of_isSettled hc).clause
      rw [hwhere] at hclause
      exact hclause
    obtain ⟨out, hne, hkept, hwritten⟩ := written_wherePredicates h hpredicates hafter hgo
    have htokens : inner.written.reverse = out := by rw [hwritten]; simp
    dsimp only at hread
    rw [htokens, List.isEmpty_eq_false_iff.mpr hne] at hread
    obtain ⟨_, _, hwrite, hread⟩ := bind_eq_some.mp hread
    obtain ⟨-, rfl⟩ := pure_eq_some.mp hread
    exact ⟨_, .of_write hwrite rfl (hpass.1.trans hkept)⟩
  · obtain ⟨-, rfl⟩ := pure_eq_some.mp hread
    exact ⟨[], .refl .code c⟩

/-! ## Functions -/

/-- A receiver is kept with its sign and its modifier. Only one without a sign has a type. -/
theorem keeps_receiver (h : rules.Keep) : Keeps .code (receiver rules) := by
  have htype : Keeps .code (do if ← operator? ":" then discard rules.type) :=
    (Keeps.operator? rfl).bind fun _ => .ite h.plusType.discard (.pure ())
  have hself (reference : Bool) : Keeps .code (do
      discard (word? "mut")
      word "self"
      if !reference then
        if ← operator? ":" then discard rules.type) := by
    refine (Keeps.word? "mut").discard.before ?_
    exact (Keeps.word "self").before (.ite htype (.pure ()))
  refine (Keeps.operator? rfl).bind fun reference => .ite ?lifetime (hself reference)
  case lifetime => exact Keeps.lifetime?.discard.before (hself reference)

/-- A parameter with a name is kept: only a type that stands alone would be printed with one. -/
theorem passes_functionParam (h : rules.Keep) {param : Param}
    (hread : functionParam rules c = some (param, c')) (hc : isSettled c.rest)
    (hnamed : (atName c.rest && atOperator "<" (c.rest.drop 1)) = false) :
    ∃ out, Passes .code out c c' := by
  rw [functionParam, ahead_bind, hnamed] at hread
  refine Keeps.ite (Keeps.operator rfl).returning ?_ c param c' hread hc
  refine (Keeps.attempt (keeps_receiver h)).bind fun _ => .ite (.pure _) ?_
  refine h.pattern.discard.before ?_
  refine (Keeps.operator rfl).before ?_
  exact (Keeps.operator? rfl).bind fun _ => .ite (.pure _) h.plusType.returning

/-- Whether a parameter in a list is a type without a name. -/
def anyNameless (ts : List Token) : Bool := startsNameless ts || hasNameless ts

/-- No parameter behind a comma is without a name if none in the list is. -/
theorem anyNameless_of_append {joint : Bool}
    (h : anyNameless (own ++ .punct ',' joint :: ts) = false) : anyNameless ts = false := by
  rw [anyNameless, Bool.or_eq_false_iff] at h
  replace h := h.2
  induction own with
  | nil => exact h
  | cons t own ih =>
    rw [List.cons_append, hasNameless.eq_def] at h
    split at h
    case h_1 heq =>
      rw [Bool.or_eq_false_iff, ← (List.cons.inj heq).2] at h
      exact ih h.2
    case h_2 heq =>
      rw [← (List.cons.inj heq).2] at h
      exact ih h
    case h_3 heq => exact nomatch heq

/-- Parameters are kept if all have a name, by induction on the bound of the recursion. -/
theorem passes_functionParams (h : rules.Keep) {n : Nat} {done params : List Param}
    (hread : functionParams rules n done c = some (params, c')) (hc : isSettled c.rest)
    (hnamed : anyNameless c.rest = false) : ∃ out, Passes .code out c c' := by
  induction n generalizing done c with
  | zero => exact nomatch hread
  | succ n ih =>
    rcases ite_peek_eq_some hread with ⟨-, hread⟩ | ⟨-, hread⟩
    · obtain ⟨-, rfl⟩ := pure_eq_some.mp hread
      exact ⟨[], .refl .code c⟩
    obtain ⟨_, first, hattributes, hread⟩ := bind_eq_some.mp hread
    obtain ⟨_, hattributes⟩ := discard_eq_some hattributes
    have hrest := rest_of_outerAttributes hattributes
    obtain ⟨out, hfirst⟩ : ∃ out, Passes .code out c first :=
      keeps_outerAttributes h _ _ _ hattributes hc
    obtain ⟨param, last, hparam, hread⟩ := bind_eq_some.mp hread
    obtain ⟨out', hlast⟩ : ∃ out, Passes .code out c last := by
      have hstart := (Bool.or_eq_false_iff.mp hnamed).1
      rw [startsNameless, ← hrest] at hstart
      obtain ⟨out', hmore⟩ := passes_functionParam h hparam (hfirst.isSettled hc) hstart
      exact ⟨_, hfirst.trans hmore⟩
    have hnext (hread : (do
        if ← atEnd then return (param :: done).reverse
        operator ","
        functionParams rules n (param :: done) : Reader (List Param)) last = some (params, c')) :
        ∃ out, Passes .code out c c' := by
      rcases ite_peek_eq_some hread with ⟨-, hread⟩ | ⟨-, hread⟩
      · obtain ⟨-, rfl⟩ := pure_eq_some.mp hread
        exact ⟨_, hlast⟩
      · obtain ⟨_, behind, hcomma, hread⟩ := bind_eq_some.mp hread
        have hbehind := hlast.trans (prints_operator rfl _ _ _ hcomma (hlast.isSettled hc))
        obtain ⟨joint, hcomma, -⟩ := operator_comma hcomma
        obtain ⟨own, hown, -⟩ := hlast.1
        rw [hown, hcomma] at hnamed
        obtain ⟨out, hmore⟩ := ih hread (hbehind.isSettled hc) (anyNameless_of_append hnamed)
        exact ⟨_, hbehind.trans hmore⟩
    cases param with
    | further =>
      obtain ⟨_, behind, hcomma, hread⟩ := bind_eq_some.mp hread
      obtain ⟨-, rfl⟩ := pure_eq_some.mp hread
      have hkeeps : Keeps .code (discard (operator? ",")) := (Keeps.operator? rfl).discard
      obtain ⟨out, hmore⟩ := hkeeps _ _ _ hcomma (hlast.isSettled hc)
      exact ⟨_, hlast.trans hmore⟩
    | receiver =>
      obtain ⟨_, between, hrequire, hread⟩ := bind_eq_some.mp hread
      obtain ⟨-, rfl⟩ := require_eq_some hrequire
      exact hnext hread
    | typed type => exact hnext hread

/-- Where a function begins, all its parameters have names. -/
theorem settledWithout_of_fn {name : String} (hts : isSettled (.ident "fn" :: ts))
    (hname : ts = .ident name :: rest) : SettledWithout .paren anyNameless ts := by
  have hparameter := (unchanged_of_isSettled hts).parameter
  have hafter : isSettled ([.ident "fn"] ++ ts) := hts
  refine ⟨isSettled_of_append hafter, fun body hbody => ?_⟩
  have hfunction : (atWord "fn" (.ident "fn" :: ts) &&
      atAnyWord (List.drop 1 (.ident "fn" :: ts))) = true := by
    subst hname
    rfl
  rw [namesParameter, hfunction, Bool.true_and, List.any_eq_false] at hparameter
  exact Bool.not_eq_true _ ▸ hparameter _ (List.mem_cons_of_mem _ hbody)

/-- What stands behind the name of a function may be read as one where all parameters have names. -/
theorem keeps_named {more : String → Reader α}
    (hmore : ∀ n, KeepsIf (SettledWithout .paren anyNameless) .code (more n)) :
    Keeps .code (do word "fn"; more (← name)) := by
  intro c _ c' hread hc
  obtain ⟨_, mid, hword, hread⟩ := bind_eq_some.mp hread
  obtain ⟨n, behind, hname, hread⟩ := bind_eq_some.mp hread
  have hmid : Passes .code [.ident "fn"] c mid := prints_word _ _ _ _ hword hc
  have hbehind : Passes .code [.ident n] mid behind := prints_name _ _ _ hname (hmid.isSettled hc)
  have hfn : SettledWithout .paren anyNameless mid.rest :=
    settledWithout_of_fn ((word_eq_some hword).1 ▸ hc) (anyWord_eq_some (name_eq_some hname).2).1
  obtain ⟨out, hlast⟩ := hmore n _ _ _ hread ((isLasting_settledWithout _ _).of_passes hbehind hfn)
  exact ⟨_, (hmid.trans hbehind).trans hlast⟩

/-- A signature is kept: behind the name of a function all parameters of its list have names. -/
theorem keeps_signature (h : rules.Keep) (safe : Bool) : Keeps .code (signature rules safe) := by
  have hq := isLasting_settledWithout .paren anyNameless
  have hparams : KeepsIf (fun ts => isSettled ts ∧ anyNameless ts = false) .code
      (do functionParams rules ((← ahead).length + 2) []) :=
    fun c _ c' hread hc => passes_functionParams h hread hc.1 hc.2
  have hgroup : KeepsIf (SettledWithout .paren anyNameless) .code
      (group .paren do functionParams rules ((← ahead).length + 2) []) :=
    hparams.group (fun hts => ⟨isSettled_body hts.1, hts.2 _ List.mem_cons_self⟩) _
  refine (Keeps.word? "const").discard.before ?_
  refine (Keeps.word? "async").bind fun _ => ?_
  refine (Keeps.word? "unsafe").bind fun _ => .ite ((Keeps.word? "safe").discard.before ?_) ?_
  all_goals
    refine keeps_convention.before (keeps_named fun _ => ?_)
    refine .bind hq (.of_keeps hq (keeps_genericParams h)) fun _ => ?_
    refine .bind hq hgroup fun _ => .of_keeps hq ?_
    refine ((keeps_resultType h true).of_type .code).bind fun _ => ?_
    exact (keeps_whereClause h).discard.returning

end ServiceDispatch.Grammar
