import ServiceDispatch.Proofs.Printing.Paths

/-!
# Types that are kept

All forms of types are kept. A type is read without writing and then written from its value: the
value stands for the tokens that were read.
-/

namespace ServiceDispatch.Grammar

variable {α : Type} {rules : Rules} {c c' : Cursor} {ts rest own out : List Token}

/-! ## Function types -/

/-- The calling convention of a function is kept, with and without a name. -/
theorem keeps_convention {place : Place} : Keeps place convention := by
  refine (Keeps.word? _).bind fun _ => .ite ?_ (.pure ())
  exact (Keeps.peek _).bind fun _ => .ite Keeps.stringLiteral.discard (.pure ())

/-- A parameter of a function type is kept with its modifier and its name. -/
theorem keeps_functionTypeParam (h : rules.Keep) (first : Bool) :
    Keeps .code (functionTypeParam rules first) := by
  have hself (mutSelf named : Bool) :
      Keeps .code (if mutSelf && !named then word "self" else discard rules.type) :=
    .ite (Keeps.word _) h.plusType.discard
  have hnamed (mutSelf : Bool) : Keeps .code (do
      let named ← peek fun ts =>
        (atName ts || atWord "_" ts || (first && atWord "self" ts)) && atOperator ":" (ts.drop 1) &&
          !atOperator "::" (ts.drop 1)
      if named then
        discard anyWord
        operator ":"
      if mutSelf && !named then word "self" else discard rules.type) := by
    refine (Keeps.peek _).bind fun named => .ite ?name (hself mutSelf named)
    case name =>
      exact Keeps.anyWord.discard.before ((Keeps.operator rfl).before (hself mutSelf named))
  refine (Keeps.peek _).bind fun mutable => .ite ?modified (hnamed _)
  case modified => exact (Keeps.word "mut").before (hnamed _)

/-- The parameters of a function type are kept, by induction on the bound of the recursion. The
last one may be open, with a name or without one. -/
theorem keeps_functionTypeParams (h : rules.Keep) (n : Nat) (first : Bool) :
    Keeps .code (functionTypeParams rules n first) := by
  induction n generalizing first with
  | zero => exact .failure
  | succ n ih =>
    have hopen : Keeps .code (do operator "..."; discard (operator? ",")) :=
      (Keeps.operator rfl).before (Keeps.operator? rfl).discard
    have hnext : Keeps .code (do
        if ← atEnd then return
        operator ","
        functionTypeParams rules n false) :=
      (Keeps.peek _).bind fun _ => .ite (.pure ()) ((Keeps.operator rfl).before (ih false))
    refine (Keeps.peek _).bind fun _ => .ite (.pure ()) ?_
    refine (keeps_outerAttributes h).discard.before ?_
    refine (Keeps.peek _).bind fun _ => .ite ?last ((keeps_functionTypeParam h first).before hnext)
    case last =>
      refine (Keeps.peek _).bind fun _ => .ite ?name hopen
      case name => exact Keeps.anyWord.discard.before ((Keeps.operator rfl).before hopen)

/-- A function type is kept without its quantifier: its modifiers, its parameters and its result. -/
theorem keeps_functionType (h : rules.Keep) : Keeps .type (functionType rules) := by
  have hparams : Keeps .code (do functionTypeParams rules ((← ahead).length + 2) true) :=
    Keeps.ahead.bind fun _ => keeps_functionTypeParams h _ _
  refine (Keeps.word? "unsafe").discard.before ?_
  refine keeps_convention.before ?_
  refine (Keeps.word "fn").before ?_
  refine (hparams.group .paren).before ?_
  exact (keeps_resultType h false).discard

/-! ## Types in parentheses -/

/-- Types with commas between them are joined tokens. -/
theorem tokensOfAll_eq_joinAll (types : List Ty) (trailing : Bool) :
    Ty.tokensOfAll types trailing = joinAll (types.map Ty.tokens) trailing := by
  induction types with
  | nil => rfl
  | cons t types ih =>
    rw [Ty.tokensOfAll, List.map_cons, joinAll, ih, List.isEmpty_map]

/-- A tuple has a comma behind its first type. -/
theorem tokensOfAll_tuple (first : Ty) (more : List Ty) (trailing : Bool) :
    Ty.tokensOfAll (first :: more) (more.isEmpty || trailing) =
      first.tokens ++ Token.operator "," ++ joinAll (more.map Ty.tokens) trailing := by
  rw [Ty.tokensOfAll, tokensOfAll_eq_joinAll]
  cases more with
  | nil => rfl
  | cons t more => rfl

/-- What a form in parentheses says of the tokens there. -/
def ParenForm.Fits (c c' : Cursor) : ParenForm → Prop
  | .whole type => ∃ inner, type.tokens = [.group .paren inner] ∧ Kept .code c.rest c'.rest inner
  | .relaxedBound => ∃ out, Passes .code out c c'
  | .single type => Kept .code c.rest c'.rest type.tokens ∧
      ∀ tokens, type = .object tokens → ¬ tokens.head?.any fun t => atLifetime [t, .ident ""]

/-- Types between commas are kept, with and without a comma at their end. -/
theorem kept_commaTypes (h : rules.Keep) {types : List Ty} {trailing : Bool}
    (hread : commaList rules.type c = some ((types, trailing), c')) (hc : isSettled c.rest) :
    Kept .code c.rest c'.rest (joinAll (types.map Ty.tokens) trailing) := by
  have htypes : ∀ ts t rest,
      (∃ c c', rules.type c = some (t, c') ∧ c.rest = ts ∧ c'.rest = rest) →
        isSettled ts → Kept .type ts rest t.tokens := by
    rintro ts t rest ⟨c, c', hread, rfl, rfl⟩ hts
    exact (h.type true c t c' hread hts).1
  exact (listed_of_separated hread).1.kept (fun _ _ => trivial) nofun htypes hc

/-- What was read in parentheses fits the form that it was taken for. A type that is printed with a
lifetime at its front would have been read as bounds. -/
theorem fits_parenForm (h : rules.Keep) {form : ParenForm}
    (hread : parenForm rules c = some (form, c')) (hc : isSettled c.rest) :
    form.Fits c c' := by
  rw [parenForm, ahead_bind] at hread
  split at hread
  case isTrue =>
    obtain ⟨rfl, rfl⟩ := pure_eq_some.mp hread
    exact ⟨[], rfl, .refl _ _⟩
  case isFalse =>
  split at hread
  case isTrue =>
    obtain ⟨⟨_, tokens⟩, after, hbounds, hread⟩ := bind_eq_some.mp hread
    obtain ⟨rfl, rfl⟩ := pure_eq_some.mp hread
    exact ⟨tokens, rfl, ((keeps_genericBounds h true false false).captured hbounds hc).1.code⟩
  case isFalse hlifetime =>
  split at hread
  case isTrue =>
    obtain ⟨_, after, hbound, hread⟩ := bind_eq_some.mp hread
    obtain ⟨rfl, rfl⟩ := pure_eq_some.mp hread
    have hkeeps := keeps_traitBound h (buildsArg_genericArg h) false
    exact hkeeps.of_type .code _ _ _ hbound hc
  case isFalse =>
  obtain ⟨first, mid, hfirst, hread⟩ := bind_eq_some.mp hread
  have hkept := (h.type true _ _ _ hfirst hc).1.code
  obtain ⟨there, behind, hcomma, hread⟩ := bind_eq_some.mp hread
  have hoperator : Passes .code (if there then Token.operator "," else []) mid behind :=
    prints_operator? rfl _ _ _ hcomma (hkept.isSettled hc)
  have hfront := hkept.trans hoperator.1
  cases there with
  | true =>
    obtain ⟨⟨more, trailing⟩, last, hlist, hread⟩ := bind_eq_some.mp hread
    obtain ⟨rfl, rfl⟩ := pure_eq_some.mp hread
    have hmore := kept_commaTypes h hlist (hfront.isSettled hc)
    refine ⟨_, rfl, ?_⟩
    rw [tokensOfAll_tuple]
    exact hfront.trans hmore
  | false =>
    obtain ⟨rfl, rfl⟩ := pure_eq_some.mp hread
    refine ⟨by simpa using hfront, ?_⟩
    rintro tokens rfl hquote
    exact hlifetime (h.quote hfirst hc hquote)

/-- Further bounds are kept with the plus signs in front of them. -/
theorem keeps_plusBounds (h : rules.Keep) : Keeps .type (plusBounds rules) := by
  have hbound := (keeps_genericBound h false false).discard
  exact (Keeps.repeatWhile _ ((Keeps.operator rfl).before hbound)).discard

/-- Whether a type in parentheses may be the first of several bounds. -/
def mayJoin : Ty → Bool
  | .object tokens => isSingleBound tokens
  | type => isBoundType type

/-- A type in parentheses as the first of several bounds. -/
def firstBound : Ty → List Token
  | .object tokens => if tokens.head?.any fun t => atLifetime [t, .ident ""] then tokens
      else [.group .paren tokens]
  | type => [.group .paren type.tokens]

/-- The parentheses stay unless there is a lifetime in them. -/
theorem firstBound_eq {type : Ty}
    (h : ∀ tokens, type = .object tokens → ¬ tokens.head?.any fun t => atLifetime [t, .ident ""]) :
    firstBound type = [.group .paren type.tokens] := by
  cases type with
  | object tokens => exact if_neg (h tokens rfl)
  | _ => rfl

/-- A single type in parentheses, perhaps with further bounds. -/
def singleForm (rules : Rules) (plus : Bool) (type : Ty) : Reader Ty := do
  if plus && (← peek (atOperator "+")) && mayJoin type then
    let (_, more) ← captured (plusBounds rules)
    return .object (firstBound type ++ more)
  else return .paren type

/-- Further bounds are kept behind a first one. -/
theorem kept_plusBounds (h : rules.Keep) {start front more : List Token} {u : Unit}
    (hread : captured (plusBounds rules) c = some ((u, more), c')) (hc : isSettled c.rest)
    (hfront : Kept .type start c.rest front) :
    Kept .type start c'.rest (Ty.object (front ++ more)).tokens :=
  hfront.trans ((keeps_plusBounds h).captured hread hc).1

/-- A type in parentheses, perhaps with further bounds, is kept if its parentheses are. -/
theorem kept_singleForm (h : rules.Keep) {plus : Bool} {type t : Ty} {start : List Token}
    (hread : singleForm rules plus type c = some (t, c')) (hc : isSettled c.rest)
    (hparen : Kept .type start c.rest [.group .paren type.tokens])
    (hquote : ∀ tokens, type = .object tokens →
      ¬ tokens.head?.any fun t => atLifetime [t, .ident ""]) :
    Kept .type start c'.rest t.tokens := by
  obtain ⟨joins, between, hpeek, hread⟩ := bind_eq_some.mp hread
  obtain ⟨-, rfl⟩ := peek_eq_some hpeek
  split at hread
  case isTrue =>
    obtain ⟨⟨_, more⟩, after, hbounds, hread⟩ := bind_eq_some.mp hread
    obtain ⟨rfl, rfl⟩ := pure_eq_some.mp hread
    rw [firstBound_eq hquote]
    exact kept_plusBounds h hbounds hc hparen
  case isFalse =>
    obtain ⟨rfl, rfl⟩ := pure_eq_some.mp hread
    exact hparen

/-- A type that begins with parentheses stands for itself, be it a tuple, a type in parentheses or
the first of several bounds. -/
theorem builds_parenType (h : rules.Keep) (plus : Bool) :
    Builds .type (parenType rules plus) Ty.tokens := by
  intro c t c' hread hc
  obtain ⟨⟨form, own⟩, mid, hgroup, hread⟩ := bind_eq_some.mp hread
  obtain ⟨behind, hparen, rfl, rfl⟩ := captured_eq_some hgroup
  obtain ⟨body, last, hrest, hform, hend, hwritten⟩ := group_eq_some hparen
  have hrest : c.rest = .group .paren body :: behind.rest := hrest
  have hbehind : isSettled behind.rest := by
    rw [hrest] at hc
    have hall : isSettled ([.group .paren body] ++ behind.rest) := hc
    exact isSettled_of_append hall
  have hfits := fits_parenForm h hform (isSettled_body (hrest ▸ hc))
  have hwhole {inner : List Token} (hinner : Kept .code body last.rest inner) :
      Kept .type c.rest behind.rest [.group .paren inner] := by
    rw [hrest]
    exact Kept.group (hend ▸ hinner) .type _
  cases form with
  | whole type =>
    obtain ⟨rfl, rfl⟩ := pure_eq_some.mp hread
    obtain ⟨inner, htokens, hinner⟩ := hfits
    rw [htokens]
    exact hwhole hinner
  | relaxedBound =>
    obtain ⟨⟨_, more⟩, after, hbounds, hread⟩ := bind_eq_some.mp hread
    obtain ⟨rfl, rfl⟩ := pure_eq_some.mp hread
    obtain ⟨out, hinner, hout⟩ := hfits
    have hown : behind.written.reverse = [.group .paren out] := by rw [hwritten, hout]; simp
    rw [hown]
    exact kept_plusBounds h hbounds hbehind (hwhole hinner)
  | single type =>
    have hread : singleForm rules plus type ⟨behind.rest, c.written, behind.found⟩ =
      some (t, c') := hread
    exact kept_singleForm h hread hbehind (hwhole hfits.1) hfits.2

/-! ## Types that begin with a path -/

/-- An exclamation mark in front of a group stands ahead wherever it stands behind. -/
theorem invokes_append (own : List Token) (h : invokes ts) : invokes (own ++ ts) := by
  induction own with
  | nil => exact h
  | cons t own ih =>
    rw [List.cons_append, invokes.eq_def]
    split
    · rfl
    · rename_i heq
      rw [← (List.cons.inj heq).2]
      exact ih
    · rename_i heq
      exact nomatch heq

/-- An invocation that was read stands ahead, as an exclamation mark in front of a group. -/
theorem invokes_of_invocationBody {d : Delimiter} (h : invocationBody c = some (d, c')) :
    invokes c.rest := by
  obtain ⟨_, mid, hbang, h⟩ := bind_eq_some.mp h
  obtain ⟨r, after, hgroup, -⟩ := bind_eq_some.mp h
  obtain ⟨hat, hmid, -⟩ := operator_eq_some hbang
  obtain ⟨joint, hrest⟩ := exists_of_atOperator_char rfl rfl hat
  have hmid : mid.rest = c.rest.drop 1 := hmid
  rw [hrest, ← hmid, (anyGroup_eq_some hgroup).1]
  rfl

/-- What begins with a path and is none goes through a type. -/
theorem atBracket_of_pathForm {inExpr : Bool} {t : Ty}
    (h : pathForm rules inExpr c = some (t, c'))
    (ht : ∀ rooted segments, t ≠ .path rooted segments) :
    atOperator "<" c.rest := by
  rcases ite_peek_eq_some h with ⟨hbracket, -⟩ | ⟨-, h⟩
  · exact hbracket
  · obtain ⟨⟨rooted, path⟩, after, -, h⟩ := bind_eq_some.mp h
    exact absurd (pure_eq_some.mp h).1.symm (ht rooted path)

/-- What stands in front of a type that begins with a path: nothing, or a quantifier. -/
def Quantified (start c : Cursor) (quantifier : Option (List Token)) : Prop :=
  (quantifier = none ∧ start = c) ∨ ∃ tokens, quantifier = some tokens ∧ isSettled start.rest ∧
    atWord "for" start.rest ∧ atOperator "<" (start.rest.drop 1) ∧ atQuantified c.rest ∧
      Kept .type start.rest c.rest tokens

/-- A quantifier is kept, and nothing is kept where there is none. -/
theorem Quantified.kept {start : Cursor} {quantifier : Option (List Token)}
    (h : Quantified start c quantifier) : Kept .type start.rest c.rest (quantifier.getD []) := by
  rcases h with ⟨rfl, rfl⟩ | ⟨tokens, rfl, -, -, -, -, hkept⟩
  · exact .refl .type _
  · exact hkept

/-- No quantifier stands in front of an invocation: in settled tokens it would be lost. -/
theorem Quantified.eq_none {start mid : Cursor} {quantifier : Option (List Token)}
    (h : Quantified start c quantifier) (hmid : Kept .type c.rest mid.rest out)
    (hinvokes : invokes mid.rest) : quantifier = none ∧ start = c := by
  refine h.resolve_right ?_
  rintro ⟨tokens, rfl, hsettled, hfor, hbracket, -, hkept⟩
  obtain ⟨own, hrest, -⟩ := hkept.trans hmid
  have hahead : invokes start.rest := hrest ▸ invokes_append own hinvokes
  have hnone := (unchanged_of_isSettled hsettled).quantifier
  rw [losesQuantifier, hfor, hbracket, hahead] at hnone
  exact nomatch hnone

/-- Further bounds may follow a path, each after a plus sign. -/
theorem keeps_furtherBounds (h : rules.Keep) (plus : Bool) : Keeps .type (do
    if plus then
      discard <| repeatStep do
        if ← operator? "+" then
          if ← peek atBound then
            return some (← bound rules (genericArg rules) false false)
          else return none
        else return none) := by
  refine .ite (Keeps.repeatStep ?step).discard (.pure ())
  case step =>
    refine (Keeps.operator? rfl).bind fun _ => .ite ?further (.pure none)
    case further =>
      have hbound := keeps_genericBound h false false
      exact (Keeps.peek _).bind fun _ => .ite hbound.returning (.pure none)

/-- No type follows a quantifier where a bracket stands, so that a path through a type has none. -/
theorem not_atQuantified (h : atOperator "<" ts) (hquantified : atQuantified ts) : False := by
  obtain ⟨joint, hts⟩ := exists_of_atOperator_char rfl rfl h
  rw [hts] at hquantified
  exact nomatch hquantified

/-- A type that begins with a path stands for itself and its quantifier. -/
theorem kept_pathType (h : rules.Keep) {plus : Bool} {start : Cursor}
    {quantifier : Option (List Token)} {t : Ty} (hstart : Quantified start c quantifier)
    (hread : pathType rules plus quantifier c = some (t, c')) (hc : isSettled c.rest) :
    Kept .type start.rest c'.rest t.tokens := by
  obtain ⟨path, mid, hpath, hread⟩ := bind_eq_some.mp hread
  have hkept := (prints_pathForm h false c path mid hpath hc).1
  have hmid := hkept.isSettled hc
  cases path with
  | path rooted segments =>
    obtain ⟨bang, between, hpeek, hread⟩ := bind_eq_some.mp hread
    obtain ⟨hbang, rfl⟩ := peek_eq_some hpeek
    split at hread
    case isTrue =>
      obtain ⟨⟨d, tokens⟩, after, hbody, hread⟩ := bind_eq_some.mp hread
      obtain ⟨rfl, rfl⟩ := pure_eq_some.mp hread
      obtain ⟨inner, hinvocation, -, -⟩ := captured_eq_some hbody
      have hinvokes := invokes_of_invocationBody hinvocation
      obtain ⟨rfl, rfl⟩ := hstart.eq_none hkept hinvokes
      exact hkept.trans (keeps_invocationBody.captured hbody hmid).1
    case isFalse =>
      obtain ⟨more, between, hpeek, hread⟩ := bind_eq_some.mp hread
      obtain ⟨-, rfl⟩ := peek_eq_some hpeek
      split at hread
      case isTrue =>
        obtain ⟨⟨_, tokens⟩, after, hbounds, hread⟩ := bind_eq_some.mp hread
        obtain ⟨rfl, rfl⟩ := pure_eq_some.mp hread
        exact (hstart.kept.trans hkept).trans ((keeps_furtherBounds h plus).captured hbounds hmid).1
      case isFalse hboth =>
        obtain ⟨rfl, rfl⟩ := pure_eq_some.mp hread
        rcases hstart with ⟨-, rfl⟩ | ⟨tokens, rfl, -⟩
        · exact hkept
        · exact absurd rfl hboth
  | _ =>
    have hbracket := atBracket_of_pathForm hpath nofun
    obtain ⟨rfl, rfl⟩ := pure_eq_some.mp hread
    rcases hstart with ⟨-, rfl⟩ | ⟨tokens, -, -, -, -, hquantified, -⟩
    · exact hkept
    · exact (not_atQuantified hbracket hquantified).elim

/-! ## All types -/

/-- The tokens of a form that is kept stand for themselves. -/
theorem builds_own {p : Reader α} (hp : Keeps .type p) :
    Builds .type (do return (← captured p).2) id :=
  Builds.map hp.builds_captured fun _ => rfl

/-- A type may stand for the tokens of a form that is kept. -/
theorem builds_tokens {p : Reader α} {f : List Token → Ty} (hp : Keeps .type p)
    (hf : ∀ tokens, (f tokens).tokens = tokens) :
    Builds .type (do let tokens ← (do return (← captured p).2); return f tokens) Ty.tokens :=
  Builds.map (builds_own hp) hf

/-- A reference stands for its sign, its lifetime, its modifier and its target. -/
theorem builds_reference (h : rules.Keep) : Builds .type (do
    operator "&"
    let lifetime ← lifetime?
    let mutable ← word? "mut"
    return .reference lifetime mutable (← rules (.type false))) Ty.tokens := by
  intro c t c' hread hc
  obtain ⟨_, start, hread', hread⟩ := bind_eq_some.mp hread
  have hsign : Passes .type (Token.operator "&") c start := prints_operator rfl _ _ _ hread' hc
  obtain ⟨lifetime, mid, hread', hread⟩ := bind_eq_some.mp hread
  have hlifetime := hsign.trans (prints_lifetime? _ _ _ hread' (hsign.isSettled hc))
  obtain ⟨mutable, mid, hread', hread⟩ := bind_eq_some.mp hread
  have hmut := hlifetime.trans (prints_word? "mut" _ _ _ hread' (hlifetime.isSettled hc))
  obtain ⟨target, mid, hread', hread⟩ := bind_eq_some.mp hread
  obtain ⟨rfl, rfl⟩ := pure_eq_some.mp hread
  exact (hmut.trans (h.type false _ _ _ hread' (hmut.isSettled hc))).1

/-- A slice or an array stands for its element and its length in brackets. -/
theorem builds_bracket (h : rules.Keep) : Builds .type (group .bracket do
    let elem ← rules.type
    if ← operator? ";" then
      let (_, length) ← captured rules.expr
      return .array elem length
    else return .slice elem) Ty.tokens := by
  intro c t c' hread hc
  obtain ⟨body, last, hrest, hread, hend, -⟩ := group_eq_some hread
  have hbody : isSettled body := isSettled_body (hrest ▸ hc)
  obtain ⟨elem, mid, helem, hread⟩ := bind_eq_some.mp hread
  have helem := (h.type true _ _ _ helem hbody).1.code
  obtain ⟨there, behind, hsemicolon, hread⟩ := bind_eq_some.mp hread
  have hfront : Kept .code body behind.rest _ :=
    helem.trans (prints_operator? rfl _ _ _ hsemicolon (helem.isSettled hbody)).1
  rw [hrest]
  cases there with
  | true =>
    obtain ⟨⟨_, length⟩, after, hlength, hread⟩ := bind_eq_some.mp hread
    obtain ⟨rfl, rfl⟩ := pure_eq_some.mp hread
    have hall := hfront.trans (h.expr.captured hlength (hfront.isSettled hbody)).1
    exact Kept.group (hend ▸ hall) .type _
  | false =>
    obtain ⟨rfl, rfl⟩ := pure_eq_some.mp hread
    refine Kept.group (hend ▸ ?_) .type _
    simpa using hfront

/-- The quantifier of a type is read in front of it. -/
theorem exists_quantifier (h : rules.Keep) {f : Option (List Token) → Reader α} {a : α}
    (hread : (do
      let quantifier ← if ← peek (atWord "for") then
          let (_, tokens) ← captured (boundLifetimes rules)
          require (← peek atQuantified)
          pure (some tokens)
        else pure none
      f quantifier) c = some (a, c')) (hc : isSettled c.rest) :
    ∃ quantifier mid, Quantified c mid quantifier ∧ isSettled mid.rest ∧
      f quantifier mid = some (a, c') := by
  rcases ite_peek_eq_some hread with ⟨hfor, hread⟩ | ⟨-, hread⟩
  · obtain ⟨⟨_, tokens⟩, mid, hquantifier, hread⟩ := bind_eq_some.mp hread
    obtain ⟨held, between, hpeek, hread⟩ := bind_eq_some.mp hread
    obtain ⟨hheld, rfl⟩ := peek_eq_some hpeek
    obtain ⟨_, between, hrequire, hread⟩ := bind_eq_some.mp hread
    obtain ⟨hquantified, rfl⟩ := require_eq_some hrequire
    have hkept := ((keeps_boundLifetimes h).captured hquantifier hc).1
    obtain ⟨inner, hinner, -, -⟩ := captured_eq_some hquantifier
    obtain ⟨_, start, hword, hinner⟩ := bind_eq_some.mp hinner
    obtain ⟨_, first, hopen, -⟩ := bind_eq_some.mp hinner
    have hbracket : atOperator "<" (c.rest.drop 1) := by
      rw [show c.rest = _ from (word_eq_some hword).1]
      exact (operator_eq_some hopen).1
    exact ⟨some tokens, mid, .inr ⟨tokens, rfl, hc, hfor, hbracket, hheld.trans hquantified, hkept⟩,
      hkept.isSettled hc, hread⟩
  · exact ⟨none, c, .inl ⟨rfl, rfl⟩, hc, hread⟩

/-- No quantifier stands in front of a form that may not follow one. -/
theorem Quantified.eq_start {start : Cursor} {quantifier : Option (List Token)}
    (h : Quantified start c quantifier) (hc : atQuantified c.rest = false) : start = c := by
  rcases h with ⟨-, rfl⟩ | ⟨tokens, -, -, -, -, hquantified, -⟩
  · rfl
  · exact absurd (hc.symm.trans hquantified) (by decide)

/-- No group follows a quantifier. -/
theorem atQuantified_of_atGroup {d : Delimiter} (h : atGroup d ts) : atQuantified ts = false := by
  cases ts with
  | nil => rfl
  | cons t ts =>
    cases t with
    | ident name => exact nomatch h
    | _ => rfl

/-- A pointer is kept: its sign, its modifier and its target. -/
theorem keeps_pointer (h : rules.Keep) : Keeps .type (do
    operator "*"
    if !(← word? "const") then word "mut"
    discard (rules (.type false))) := by
  have htarget : Keeps .type (discard (rules (.type false))) := (h.typeIn false).discard
  refine (Keeps.operator rfl).before ?_
  exact (Keeps.word? "const").bind fun _ => .ite ((Keeps.word "mut").before htarget) htarget

/-- A trait object is kept with the bounds behind its word. -/
theorem keeps_dyn (h : rules.Keep) (plus : Bool) : Keeps .type (do
    word "dyn"
    objectBounds rules (genericArg rules) plus false false) :=
  (Keeps.word "dyn").before (keeps_genericBounds h plus false false)

/-- A trait object behind a pointer sign is kept, as it is printed the way it is written. -/
theorem keeps_dynPointer (h : rules.Keep) (plus : Bool) : Keeps .type (verbatim do
    word "dyn"
    operator "*"
    objectBounds rules (genericArg rules) plus false false) := by
  have hbounds := keeps_genericBounds h plus false false
  exact Keeps.verbatim ((Keeps.word "dyn").before ((Keeps.operator rfl).before hbounds))

/-- An opaque type is kept with the bounds behind its word, among which a capture may stand. -/
theorem keeps_impl (h : rules.Keep) (plus : Bool) : Keeps .type (do
    word "impl"
    objectBounds rules (genericArg rules) plus true true) :=
  (Keeps.word "impl").before (keeps_genericBounds h plus true true)

/-- A type stands for itself, by the forms that it may begin with. Only a function type and a path
may follow a quantifier, so that in all other forms none was read. -/
theorem builds_typeForm (h : rules.Keep) (plus : Bool) :
    Builds .type (typeForm rules plus) Ty.tokens := by
  intro c t c' hread hc
  obtain ⟨quantifier, mid, hstart, hmid, hread⟩ := exists_quantifier h hread hc
  rw [ahead_bind] at hread
  rcases ite_eq_some hread with ⟨hparen, hread⟩ | ⟨hparen, hread⟩
  · obtain rfl := hstart.eq_start (atQuantified_of_atGroup hparen)
    exact builds_parenType h plus _ _ _ hread hc
  rcases ite_eq_some hread with ⟨hword, hread⟩ | ⟨hword, hread⟩
  · obtain ⟨tokens, after, hfunction, hread⟩ := bind_eq_some.mp hread
    obtain ⟨rfl, rfl⟩ := pure_eq_some.mp hread
    exact hstart.kept.trans (builds_own (keeps_functionType h) _ _ _ hfunction hmid)
  rcases ite_eq_some hread with ⟨hpath, hread⟩ | ⟨hpath, hread⟩
  · exact kept_pathType h hstart hread hmid
  have hunquantified : atQuantified mid.rest = false := by
    simp only [Bool.or_eq_true, not_or, Bool.not_eq_true] at hword hpath
    simp [atQuantified, hword, hpath]
  obtain rfl := hstart.eq_start hunquantified
  rcases ite_eq_some hread with ⟨-, hread⟩ | ⟨-, hread⟩
  · rcases ite_eq_some hread with ⟨-, hread⟩ | ⟨-, hread⟩
    · exact builds_tokens (keeps_dynPointer h plus) (fun _ => rfl) _ _ _ hread hc
    · exact builds_tokens (keeps_dyn h plus) (fun _ => rfl) _ _ _ hread hc
  rcases ite_eq_some hread with ⟨-, hread⟩ | ⟨-, hread⟩
  · exact builds_bracket h _ _ _ hread hc
  rcases ite_eq_some hread with ⟨-, hread⟩ | ⟨-, hread⟩
  · exact builds_tokens (keeps_pointer h) (fun _ => rfl) _ _ _ hread hc
  rcases ite_eq_some hread with ⟨-, hread⟩ | ⟨-, hread⟩
  · exact builds_reference h _ _ _ hread hc
  rcases ite_eq_some hread with ⟨-, hread⟩ | ⟨-, hread⟩
  · exact builds_tokens (Keeps.operator rfl) (fun _ => rfl) _ _ _ hread hc
  rcases ite_eq_some hread with ⟨-, hread⟩ | ⟨-, hread⟩
  · exact builds_tokens (keeps_impl h plus) (fun _ => rfl) _ _ _ hread hc
  rcases ite_eq_some hread with ⟨-, hread⟩ | ⟨-, hread⟩
  · exact builds_tokens (Keeps.word _) (fun _ => rfl) _ _ _ hread hc
  rcases ite_eq_some hread with ⟨-, hread⟩ | ⟨-, hread⟩
  · exact builds_tokens (keeps_genericBounds h true false false) (fun _ => rfl) _ _ _ hread hc
  exact nomatch hread

/-! ## The front of a type -/

/-- A type that was read has been built in silence. -/
theorem typeForm_of_readType {plus : Bool} {t : Ty} (h : readType rules plus c = some (t, c')) :
    ∃ after, typeForm rules plus c = some (t, after) ∧ c'.rest = after.rest ∧
      c'.written = t.tokens.reverse ++ c.written := by
  obtain ⟨t', between, htype, h⟩ := bind_eq_some.mp h
  obtain ⟨rfl, rfl⟩ := Prod.mk.inj (Option.some.inj h)
  obtain ⟨after, hform, rfl⟩ := silently_eq_some htype
  exact ⟨after, hform, rfl, rfl⟩

/-- A type is written from its value, as it is built without writing. -/
theorem prints_readType (h : rules.Keep) (plus : Bool) :
    Prints .type (readType rules plus) Ty.tokens := by
  intro c t c' hread hc
  obtain ⟨after, hform, hrest, hwritten⟩ := typeForm_of_readType hread
  refine ⟨?_, hwritten⟩
  rw [hrest]
  exact builds_typeForm h plus c t after hform hc

/-- No type begins with an attribute, so that one in front of an argument is not its own. -/
theorem start_of_readType {plus : Bool} {t : Ty} (h : readType rules plus c = some (t, c')) :
    atOperator "#" c.rest = false := by
  obtain ⟨after, hform, -⟩ := typeForm_of_readType h
  by_contra hstart
  obtain ⟨joint, hrest⟩ := exists_of_atOperator_char rfl rfl (Bool.not_eq_false _ ▸ hstart)
  generalize c.rest.drop 1 = more at hrest
  obtain ⟨ts, written, found⟩ := c
  obtain rfl : ts = .punct '#' joint :: more := hrest
  exact nomatch hform

/-- A type that begins with a quote begins with a lifetime. -/
theorem atLifetime_of_typeForm {plus : Bool} {t : Ty} {joint : Bool}
    (h : typeForm rules plus c = some (t, c')) (hc : c.rest = .punct '\'' joint :: rest) :
    atLifetime c.rest := by
  obtain ⟨ts, written, found⟩ := c
  obtain rfl : ts = .punct '\'' joint :: rest := hc
  cases joint with
  | false => exact nomatch h
  | true =>
    cases rest with
    | nil => exact nomatch h
    | cons t rest =>
      cases t with
      | ident name => rfl
      | _ => exact nomatch h

/-- A type that is printed with a lifetime at its front was read at one. -/
theorem quote_of_readType (h : rules.Keep) {plus : Bool} {tokens : List Token}
    (hread : readType rules plus c = some (.object tokens, c')) (hc : isSettled c.rest)
    (hquote : tokens.head?.any fun t => atLifetime [t, .ident ""]) : atLifetime c.rest := by
  obtain ⟨after, hform, -⟩ := typeForm_of_readType hread
  obtain ⟨own, hrest, -, hown⟩ := builds_typeForm h plus c _ after hform hc
  cases tokens with
  | nil => exact nomatch hquote
  | cons t more =>
    obtain rfl : t = .punct '\'' true := by
      have hlifetime : atLifetime [t, .ident ""] := hquote
      unfold atLifetime at hlifetime
      split at hlifetime
      case h_1 heq => exact (List.cons.inj heq).1
      case h_2 => exact nomatch hlifetime
    obtain ⟨joint, own, rfl, -⟩ := exists_of_bareAll_cons hown.symm
    exact atLifetime_of_typeForm hform hrest

end ServiceDispatch.Grammar
