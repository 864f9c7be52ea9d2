import ServiceDispatch.Proofs.Printing.Readers

/-!
# Paths that are kept

Attributes, lists in angle brackets, paths and bounds are kept if the forms inside them are. A path
is written from its value, so that its value stands for the tokens that were read.
-/

namespace ServiceDispatch.Grammar

variable {α : Type} {rules : Rules} {c c' : Cursor} {ts rest own out : List Token}

/-- What the readers of all forms keep: every form is kept as code, and a type is written from its
value. No type begins with an attribute, and a type that is printed with a lifetime at its front was
read at one. -/
structure Rules.Keep (rules : Rules) : Prop where
  form : ∀ form, Keeps .code (rules form)
  type : ∀ plus, Prints .type (rules (.type plus)) Ty.tokens
  start : ∀ {plus c t c'}, rules (.type plus) c = some (t, c') → atOperator "#" c.rest = false
  quote : ∀ {plus c tokens c'}, rules (.type plus) c = some (.object tokens, c') →
    isSettled c.rest → tokens.head?.any (fun t => atLifetime [t, .ident ""]) → atLifetime c.rest

namespace Rules.Keep

variable (h : rules.Keep) {place : Place}

include h

/-- An expression is kept by the rule for it, with braces allowed. -/
theorem expr : Keeps .code rules.expr := h.form (.expr true)

/-- A condition is kept by the rule for expressions in which no struct may stand. -/
theorem condition : Keeps .code rules.condition := h.form (.expr false)

/-- A pattern is kept by the rule for it. -/
theorem pattern : Keeps .code rules.pattern := h.form .pattern

/-- A type is kept in every place. -/
theorem typeIn (plus : Bool) : Keeps place (rules (.type plus)) := (h.type plus).keeps.of_type place

/-- A type to which bounds may be added is kept in every place. -/
theorem plusType : Keeps place rules.type := h.typeIn true

/-- A block is kept in every place, as it is a group of statements. -/
theorem block : Keeps place rules.block := Keeps.group (h.form .statements) _

end Rules.Keep

/-! ## Attributes and blocks -/

/-- A path of plain names is kept, with and without a root. -/
theorem keeps_plainPath : Keeps .code plainPath := by
  have hsegment : Keeps .code (do
      let ts ← ahead
      require (atName ts || atWord "super" ts || atWord "self" ts || atWord "Self" ts ||
        atWord "crate" ts)
      anyWord) := Keeps.ahead.bind fun _ => (Keeps.require _).before .anyWord
  refine (Keeps.operator? rfl).bind fun _ => ?_
  refine hsegment.bind fun _ => ?_
  exact (Keeps.repeatWhile _ ((Keeps.operator rfl).before hsegment)).returning

/-- The body of an attribute is kept: a path, with a group or with a value behind it. The value is
captured, and then written as it was read. -/
theorem keeps_attributeBody (h : rules.Keep) : Keeps .code (attributeBody rules) := by
  refine (Keeps.peek _).bind fun _ =>
    .ite ((Keeps.word _).before ((Keeps.pure _).bind ?rest)) (keeps_plainPath.bind ?rest)
  case rest =>
    rintro ⟨rooted, path⟩
    refine Keeps.ahead.bind fun _ => .ite Keeps.anyGroup.returning ?_
    refine .ite ((Keeps.operator rfl).before ?value) (.pure _)
    case value =>
      refine Keeps.ahead.bind fun _ => (Keeps.require _).before ?_
      exact .captured_write h.expr fun _ _ => ⟨_, rfl, .pure _⟩

/-- The attributes in front of a form are kept in every place, since their tokens stand in groups.
-/
theorem keeps_outerAttributes (h : rules.Keep) {place : Place} :
    Keeps place (outerAttributes rules) :=
  Keeps.repeatWhile _ ((Keeps.operator rfl).before ((keeps_attributeBody h).group .bracket))

/-- The attributes at the beginning of a block are kept. -/
theorem keeps_innerAttributes (h : rules.Keep) : Keeps .code (innerAttributes rules) := by
  have hbody : Keeps .code (group .bracket (attributeBody rules)) :=
    (keeps_attributeBody h).group .bracket
  exact Keeps.repeatWhile _ ((Keeps.operator rfl).before ((Keeps.operator rfl).before hbody))

/-- A block is kept in every place with the attributes at its beginning. -/
theorem keeps_attributedBlock (h : rules.Keep) {place : Place} :
    Keeps place (attributedBlock rules) := by
  refine Keeps.group ?_ .brace
  exact (keeps_innerAttributes h).bind fun _ => (h.form .statements).returning

/-! ## Parts of types -/

/-- A constant argument is kept, be it a literal, a name or a block. -/
theorem keeps_constArgument (h : rules.Keep) {place : Place} :
    Keeps place (constArgument rules) := by
  refine Keeps.ahead.bind fun _ => .ite keeps_literal.discard ?_
  exact .ite Keeps.name.discard (keeps_attributedBlock h).discard

/-- The lifetimes that a quantifier binds are kept with the brackets around them. -/
theorem keeps_boundLifetimes (h : rules.Keep) : Keeps .type (boundLifetimes rules) := by
  have hlifetime : Keeps .list (do discard (outerAttributes rules); discard lifetime) :=
    (keeps_outerAttributes h).discard.before Keeps.lifetime.discard
  have hlifetimes : Keeps .list (discard <| separated (atOperator ">") "," do
      discard (outerAttributes rules)
      discard lifetime) := (Keeps.separated rfl hlifetime _).discard
  refine (Keeps.word _).before ?_
  intro c _ c' hread hc
  obtain ⟨_, first, hopen, hread⟩ := bind_eq_some.mp hread
  obtain ⟨_, last, hinner, hclose⟩ := bind_eq_some.mp hread
  obtain ⟨out, hpass⟩ := hlifetimes _ _ _ hinner (isSettled_of_operator hopen hc)
  exact ⟨_, hpass.brackets hopen hclose .type⟩

/-- The type behind an arrow is kept with it. -/
theorem keeps_resultType (h : rules.Keep) (plus : Bool) : Keeps .type (resultType rules plus) :=
  (Keeps.operator? rfl).bind fun _ => .ite (h.typeIn plus).returning (.pure _)

/-- Arguments in parentheses are kept with the result that may stand behind them. -/
theorem keeps_callArgs (h : rules.Keep) : Keeps .type (callArgs rules) :=
  ((Keeps.commaList h.plusType).group .paren).discard.before (keeps_resultType h false).discard

/-! ## Lists in angle brackets -/

/-- Whether a reader stands for arguments of a list by its value: their tokens are kept, and their
marks fit what is ahead. -/
def BuildsArg {α : Type} (p : Reader α) (arg : α → Bool × List Token) : Prop :=
  ∀ c a c', p c = some (a, c') → isSettled c.rest →
    Kept .type c.rest c'.rest (arg a).2 ∧ FitsMark (arg a).1 c.rest

/-- A list in angle brackets is kept if its arguments are, and it is not empty. -/
theorem kept_list {α : Type} {p : Reader α} {arg : α → Bool × List Token} (hp : BuildsArg p arg)
    {first last : Cursor} {values : List α} {trailing : Bool} (hc : isSettled c.rest)
    (hopen : operator "<" c = some ((), first))
    (hlist : separated (atOperator ">") "," p first = some ((values, trailing), last)) :
    Kept .list first.rest last.rest (arrangeArgs (values.map arg) trailing) ∧ values ≠ [] := by
  obtain ⟨hat, hfirst, -⟩ := operator_eq_some hopen
  have hfirst : first.rest = c.rest.drop 1 := hfirst
  obtain ⟨hlisted, hempty⟩ := listed_of_separated hlist
  have hsettled := isSettled_of_operator hopen hc
  have harg : ∀ ts a rest, (∃ c c', p c = some (a, c') ∧ c.rest = ts ∧ c'.rest = rest) →
      isSettled ts → Kept .type ts rest (arg a).2 ∧ FitsMark (arg a).1 ts := by
    rintro ts a rest ⟨c, c', hread, rfl, rfl⟩ hts
    exact hp c a c' hread hts
  have hunchanged := unchanged_of_isSettled hc
  have hbrackets := hunchanged.brackets
  have hordered := hunchanged.order
  rw [losesBrackets, hat, Bool.true_and, ← hfirst] at hbrackets
  rw [reordersList, hat, Bool.true_and, ← hfirst] at hordered
  refine ⟨?_, fun hnil => absurd ((hempty hnil).symm.trans hbrackets) (by decide)⟩
  obtain ⟨hpairs, -⟩ := hlisted.isOrdered harg hsettled false rfl hordered
  rw [arrangeArgs_of_isOrdered hpairs, List.map_map]
  exact hlisted.kept (fun _ h => Spans.of_type h .list) (nofun)
    (fun ts a rest ha hts => (harg ts a rest ha hts).1) hsettled

/-- An argument that begins with a lifetime fits the mark for one. -/
theorem fitsMark_lifetime {name : String} (h : ts = .punct '\'' true :: .ident name :: rest) :
    FitsMark true ts := by
  subst h
  exact rfl

/-- An argument that begins with a word is no lifetime. -/
theorem fitsMark_word {name : String} (h : ts = .ident name :: rest) : FitsMark false ts := by
  subst h
  exact rfl

/-- A name that is captured is kept, and it is marked where it is a lifetime. -/
theorem buildsArg_capturedName : BuildsArg capturedName id := by
  intro c r c' h hc
  rw [capturedName, ahead_bind] at h
  split at h
  case isTrue =>
    obtain ⟨name, after, hread, h⟩ := bind_eq_some.mp h
    obtain ⟨rfl, rfl⟩ := pure_eq_some.mp h
    exact ⟨(prints_lifetime c name after hread hc).1, fitsMark_lifetime (lifetime_eq_some hread).1⟩
  case isFalse =>
    split at h
    case isTrue =>
      obtain ⟨name, after, hread, h⟩ := bind_eq_some.mp h
      obtain ⟨rfl, rfl⟩ := pure_eq_some.mp h
      exact ⟨(prints_anyWord c name after hread hc).1, fitsMark_word (anyWord_eq_some hread).1⟩
    case isFalse =>
      obtain ⟨name, after, hread, h⟩ := bind_eq_some.mp h
      obtain ⟨rfl, rfl⟩ := pure_eq_some.mp h
      exact ⟨(prints_name c name after hread hc).1,
        fitsMark_word (anyWord_eq_some (name_eq_some hread).2).1⟩

/-- The names of a capture are kept: in settled tokens the lifetimes among them stand first. -/
theorem keeps_captureBound : Keeps .type captureBound := by
  refine (Keeps.word _).before ?_
  intro c _ c' h hc
  obtain ⟨_, first, hopen, h⟩ := bind_eq_some.mp h
  obtain ⟨⟨names, trailing⟩, between, hlist, h⟩ := bind_eq_some.mp h
  obtain ⟨last, hnames, rfl⟩ := silently_eq_some hlist
  obtain ⟨_, mid, hwrite, hclose⟩ := bind_eq_some.mp h
  have hkept := (kept_list buildsArg_capturedName hc hopen hnames).1
  rw [List.map_id] at hkept
  have hpass : Passes .list (arrangeArgs names trailing) first mid := .of_write hwrite rfl hkept
  exact ⟨_, hpass.brackets hopen hclose .type⟩

/-! ## Paths -/

/-- A generic argument with its tokens, marked where it is a lifetime. -/
def TyArg.marked : TyArg → Bool × List Token
  | .lifetime name => (true, Token.lifetime name)
  | .type type => (false, type.tokens)
  | .const value => (false, value)
  | .binding tokens => (false, tokens)

/-- The marks of arguments are given one by one. -/
theorem markedAll_eq_map (args : List TyArg) : TyArg.markedAll args = args.map TyArg.marked := by
  induction args with
  | nil => rfl
  | cons arg args ih => cases arg <;> rw [TyArg.markedAll, ih] <;> rfl

variable {arg : Reader TyArg}

/-- Generic arguments stand for themselves, and there is one: settled tokens have no empty brackets.
-/
theorem builds_angledArgs (harg : BuildsArg arg TyArg.marked) {args : PathArgs}
    (h : angledArgs arg c = some (args, c')) (hc : isSettled c.rest) :
    Kept .type c.rest c'.rest args.tokens ∧ args.isEmpty = false := by
  obtain ⟨turbofish, start, hcolons, h⟩ := bind_eq_some.mp h
  have hfront : Kept .type c.rest start.rest (if turbofish then Token.operator "::" else []) :=
    (prints_operator? rfl c turbofish start hcolons hc).1
  obtain ⟨_, first, hopen, h⟩ := bind_eq_some.mp h
  obtain ⟨⟨values, trailing⟩, last, hlist, h⟩ := bind_eq_some.mp h
  obtain ⟨_, behind, hclose, h⟩ := bind_eq_some.mp h
  obtain ⟨rfl, rfl⟩ := pure_eq_some.mp h
  obtain ⟨hkept, hvalues⟩ := kept_list harg (hfront.isSettled hc) hopen hlist
  have hall := hfront.trans (hkept.between hopen hclose .type)
  refine ⟨?_, List.isEmpty_eq_false_iff.mpr hvalues⟩
  rw [← List.append_assoc, ← List.append_assoc] at hall
  rwa [PathArgs.tokens, markedAll_eq_map]

/-- The tokens of a segment. -/
def segmentTokens (s : Segment) : List Token := .ident s.name :: s.args.tokens

/-- Whether a segment that counts as one without arguments has no brackets. -/
def IsProper (s : Segment) : Prop := s.args.isEmpty → s.args = .none

/-- A segment is written from its value, and it has no empty brackets. -/
theorem passes_segment (harg : BuildsArg arg TyArg.marked) {inExpr : Bool} {s : Segment}
    (h : segment arg inExpr c = some (s, c')) (hc : isSettled c.rest) :
    Passes .type (segmentTokens s) c c' ∧ IsProper s := by
  rw [segment, ahead_bind] at h
  dsimp only at h
  split at h
  case isTrue =>
    obtain ⟨name, after, hread, h⟩ := bind_eq_some.mp h
    obtain ⟨rfl, rfl⟩ := pure_eq_some.mp h
    exact ⟨prints_anyWord c name after hread hc, fun _ => rfl⟩
  case isFalse =>
    obtain ⟨name, after, hname, h⟩ : ∃ name after, Passes .type [.ident name] c after ∧ (do
        let ts ← ahead
        let angled := !inExpr && atOperator "<" ts && !atOperator "<=" ts && !atOperator "<<=" ts
        let turbofish := atOperator "::" ts && atOperator "<" (ts.drop 2)
        if angled || turbofish then
          let args ← silently (angledArgs arg)
          write args.tokens
          return .mk name args
        else return .mk name .none : Reader Segment) after = some (s, c') := by
      split at h
      all_goals
        obtain ⟨name, after, hread, h⟩ := bind_eq_some.mp h
      · exact ⟨name, after, prints_anyWord c name after hread hc, h⟩
      · exact ⟨name, after, prints_name c name after hread hc, h⟩
    rw [ahead_bind] at h
    split at h
    case isTrue =>
      obtain ⟨args, between, hargs, h⟩ := bind_eq_some.mp h
      obtain ⟨last, hangled, rfl⟩ := silently_eq_some hargs
      obtain ⟨_, _, hwrite, h⟩ := bind_eq_some.mp h
      obtain ⟨rfl, rfl⟩ := pure_eq_some.mp h
      obtain ⟨hkept, hargs⟩ := builds_angledArgs harg hangled (hname.isSettled hc)
      refine ⟨hname.trans (.of_write hwrite rfl hkept), fun hempty => ?_⟩
      exact absurd (hargs.symm.trans hempty) (by decide)
    case isFalse =>
      obtain ⟨rfl, rfl⟩ := pure_eq_some.mp h
      exact ⟨hname, fun _ => rfl⟩

/-- Segments behind the first one have a separator in front of them. -/
theorem tokensOfAll_cons (s : Segment) (more : List Segment) :
    Segment.tokensOfAll (s :: more) =
      segmentTokens s ++ more.flatMap fun s => Token.operator "::" ++ segmentTokens s := by
  induction more generalizing s with
  | nil =>
    cases s
    simp [Segment.tokensOfAll, segmentTokens, Segment.name, Segment.args]
  | cons s' more ih =>
    rw [List.flatMap_cons, List.append_assoc, ← ih s']
    cases s
    simp [Segment.tokensOfAll, segmentTokens, Segment.name, Segment.args]

/-- The segments of a path are written from their values, and none has empty brackets. -/
theorem passes_segments (harg : BuildsArg arg TyArg.marked) {inExpr : Bool}
    {r : Bool × List Segment} (h : segments arg inExpr c = some (r, c')) (hc : isSettled c.rest) :
    Passes .type (Ty.path r.1 r.2).tokens c c' ∧ ∀ s ∈ r.2, IsProper s := by
  obtain ⟨rooted, start, hrooted, h⟩ := bind_eq_some.mp h
  obtain ⟨first, mid, hfirst, h⟩ := bind_eq_some.mp h
  obtain ⟨more, last, hmore, h⟩ := bind_eq_some.mp h
  obtain ⟨rfl, rfl⟩ := pure_eq_some.mp h
  have hstart : Passes .type (if rooted then Token.operator "::" else []) c start :=
    prints_operator? rfl c rooted start hrooted hc
  obtain ⟨hpass, hproper⟩ := passes_segment harg hfirst (hstart.isSettled hc)
  have hfront := hstart.trans hpass
  have hstep : ∀ c s c', (do operator "::"; segment arg inExpr : Reader Segment) c = some (s, c') →
      isSettled c.rest →
        Passes .type (Token.operator "::" ++ segmentTokens s) c c' ∧ IsProper s := by
    intro c s c' h hc
    obtain ⟨_, behind, hcolons, hsegment⟩ := bind_eq_some.mp h
    have hoperator : Passes .type (Token.operator "::") c behind :=
      prints_operator rfl c () behind hcolons hc
    obtain ⟨hpass, hproper⟩ := passes_segment harg hsegment (hoperator.isSettled hc)
    exact ⟨hoperator.trans hpass, hproper⟩
  obtain ⟨hrest, hall⟩ := passes_repeatWhile hstep hmore (hfront.isSettled hc)
  refine ⟨?_, List.forall_mem_cons.mpr ⟨hproper, hall⟩⟩
  rw [Ty.tokens, tokensOfAll_cons, ← List.append_assoc]
  exact hfront.trans hrest

/-- Arguments of the last segment stand behind a path. -/
theorem tokensOfAll_call (front : List Segment) (name : String) (tokens : List Token) :
    Segment.tokensOfAll (front ++ [.mk name (.call tokens)]) =
      Segment.tokensOfAll (front ++ [.mk name .none]) ++ tokens := by
  induction front with
  | nil => simp [Segment.tokensOfAll, PathArgs.tokens]
  | cons s front ih =>
    cases s
    simp [Segment.tokensOfAll, ih]

/-- Where no separator in front of parentheses vanishes, there is none. -/
theorem operator?_colons_call {there : Bool} (hcall : atCallArgs c.rest) (hc : isSettled c.rest)
    (h : operator? "::" c = some (there, c')) : c' = c := by
  have hnone : atOperator "::" c.rest = false := by
    by_contra htrue
    have hcolons := Bool.not_eq_false _ ▸ htrue
    have hparen := (unchanged_of_isSettled hc).colons
    rw [losesColons, hcolons, Bool.true_and] at hparen
    rw [atCallArgs, atGroup_of_atOperator hcolons, hparen, Bool.and_false] at hcall
    exact nomatch hcall
  rcases optional_eq_some h with ⟨-, hread⟩ | ⟨-, -, hcursor⟩
  · exact absurd (hnone.symm.trans (operator_eq_some hread).1) (by decide)
  · exact hcursor.symm

/-- The path of a trait stands for itself: arguments in parentheses are those of its last
segment. -/
theorem builds_traitPath (h : rules.Keep) (harg : BuildsArg arg TyArg.marked) :
    Builds .type (traitPath rules arg) fun r => (Ty.path r.1 r.2).tokens := by
  intro c r c' hread hc
  obtain ⟨⟨rooted, path⟩, mid, hpath, hread⟩ := bind_eq_some.mp hread
  obtain ⟨segments, last, hcall, hread⟩ := bind_eq_some.mp hread
  obtain ⟨rfl, rfl⟩ := pure_eq_some.mp hread
  obtain ⟨⟨hkept, -⟩, hproper⟩ := passes_segments harg hpath hc
  have hmid := hkept.isSettled hc
  unfold withCallArgs at hcall
  cases hs : path.getLast? with
  | none =>
    rw [hs] at hcall
    obtain ⟨rfl, rfl⟩ := pure_eq_some.mp hcall
    exact hkept
  | some s =>
    rw [hs] at hcall
    obtain ⟨front, rfl⟩ := List.getLast?_eq_some_iff.mp hs
    obtain ⟨called, between, hpeek, hcall⟩ := bind_eq_some.mp hcall
    obtain ⟨hcalled, rfl⟩ := peek_eq_some hpeek
    split at hcall
    case isTrue hboth =>
      rw [Bool.and_eq_true] at hboth
      obtain ⟨_, start, hcolons, hcall⟩ := bind_eq_some.mp hcall
      obtain ⟨⟨_, tokens⟩, after, hargs, hcall⟩ := bind_eq_some.mp hcall
      obtain ⟨rfl, rfl⟩ := pure_eq_some.mp hcall
      obtain ⟨there, hsilent⟩ := discard_eq_some hcolons
      obtain ⟨behind, hthere, rfl⟩ := silently_eq_some hsilent
      obtain rfl : behind = mid := operator?_colons_call (hcalled.trans hboth.2) hmid hthere
      have htokens := (Keeps.captured (keeps_callArgs h) hargs hmid).1
      obtain ⟨name, args⟩ := s
      obtain rfl : args = .none := hproper (.mk name args) (by simp) hboth.1
      rw [List.dropLast_concat]
      show Kept .type c.rest after.rest (Ty.path rooted (front ++ [.mk name (.call tokens)])).tokens
      rw [Ty.tokens, tokensOfAll_call, ← List.append_assoc]
      exact hkept.trans htokens
    case isFalse =>
      obtain ⟨rfl, rfl⟩ := pure_eq_some.mp hcall
      exact hkept

/-! ## Bounds -/

/-- A trait is kept with its quantifier and its modifiers. Its path is written from its value. -/
theorem keeps_traitBound (h : rules.Keep) (harg : BuildsArg arg TyArg.marked) (allowConst : Bool) :
    Keeps .type (traitBound rules arg allowConst) := by
  have hpath : Keeps .type (do
      let path ← silently (traitPath rules arg)
      write (Ty.path path.1 path.2).tokens) :=
    (builds_traitPath h harg).keeps_write fun _ => ⟨pure (), rfl, .pure _⟩
  have hrelaxed (quantified : Bool) : Keeps .type (do
      let relaxed ← operator? "?"
      require !(quantified && relaxed)
      require !(relaxed && (← peek (atWord "for")))
      let path ← silently (traitPath rules arg)
      write (Ty.path path.1 path.2).tokens) := by
    refine (Keeps.operator? rfl).bind fun _ => ?_
    refine (Keeps.require _).before ?_
    exact (Keeps.peek _).bind fun _ => (Keeps.require _).before hpath
  refine (Keeps.peek _).bind fun quantified => .ite ((keeps_boundLifetimes h).before ?_) ?_
  all_goals
    have hconst := (Keeps.require allowConst).before (hrelaxed quantified)
    refine Keeps.ahead.bind fun _ => .ite ?tilde (.ite ?const (hrelaxed quantified))
    case tilde => exact (Keeps.operator rfl).before ((Keeps.word "const").before hconst)
    case const => exact (Keeps.word "const").before hconst

/-- A bound is kept, be it a lifetime, a capture or a trait, which may stand in parentheses. -/
theorem keeps_bound (h : rules.Keep) (harg : BuildsArg arg TyArg.marked)
    (allowCapture allowConst : Bool) :
    Keeps .type (bound rules arg allowCapture allowConst) := by
  have htrait := keeps_traitBound h harg allowConst
  refine Keeps.ahead.bind fun _ => .ite Keeps.lifetime.discard.returning (.ite ?capture ?trait)
  case capture => exact (Keeps.require _).before keeps_captureBound.returning
  case trait =>
    have hgroup : Keeps .type (group .paren (traitBound rules arg allowConst)) :=
      (htrait.of_type .code).group .paren
    exact .ite hgroup.returning htrait.returning

/-- Bounds that plus signs join are kept; a plus sign may stand at their end. -/
theorem keeps_objectBounds (h : rules.Keep) (harg : BuildsArg arg TyArg.marked)
    (plus allowCapture allowConst : Bool) :
    Keeps .type (objectBounds rules arg plus allowCapture allowConst) := by
  have hone := keeps_bound h harg allowCapture allowConst
  refine hone.bind fun first => .ite ?more ((Keeps.pure _).bind fun _ => .require _)
  case more =>
    refine (Keeps.repeatStep ?step).bind fun _ => .require _
    case step =>
      refine (Keeps.operator? rfl).bind fun _ => .ite ?further (.pure _)
      case further => exact (Keeps.peek _).bind fun _ => .ite hone.returning (.pure _)

/-! ## Generic arguments -/

/-- Where no attribute stands, none is passed. -/
theorem pastAttributes_eq_self (h : atOperator "#" ts = false) : pastAttributes ts = ts := by
  rw [pastAttributes.eq_def]
  split
  case h_1 joint body rest => exact nomatch h
  case h_2 => rfl

/-- An argument that begins with no attribute and is no mere lifetime fits the mark for it. -/
theorem fitsMark_other (hstart : atOperator "#" ts = false)
    (hother : (atLifetime ts && !atOperator "+" (skipToken ts)) = false) : FitsMark false ts := by
  show startsOther ts = true
  rw [startsOther, pastAttributes_eq_self hstart, ← Bool.not_eq_false', Bool.not_or, Bool.not_not]
  exact hother

/-- No attribute stands where a constant argument does, as this is a literal or a block. -/
theorem atAttribute_of_atConst (h : atLiteral ts || atGroup .brace ts) :
    atOperator "#" ts = false := by
  by_contra hstart
  obtain ⟨joint, hts⟩ := exists_of_atOperator_char rfl rfl (Bool.not_eq_false _ ▸ hstart)
  rw [hts] at h
  exact nomatch h

/-- Whether a type may be the name of an associated type. -/
def isBindable : Ty → Bool
  | .path false [_] => true
  | _ => false

/-- What makes a type a binding: its value or its bounds. -/
def bindingTail (rules : Rules) (arg : Reader TyArg) (t : Ty) : Reader (Option Ty) := do
  if isBindable t && (← peek (atOperator "=")) then
    operator "="
    let ts ← ahead
    if atLiteral ts || atGroup .brace ts then constArgument rules else discard rules.type
    return none
  else if isBindable t && (← peek (atOperator ":")) then
    operator ":"
    discard <| joined (fun ts => atOperator "," ts || atOperator ">" ts) "+"
      (bound rules arg false true)
    return none
  else return some t

/-- What is read behind a binding gives no type, and its tokens are kept. -/
theorem passes_none {read : Reader (Option Ty)} {value : Option Ty}
    (hread : read c = some (value, c')) (hc : isSettled c.rest) (hkeeps : Keeps .type read)
    (hnone : Yields read (· = none)) : value = none ∧ ∃ out, Passes .type out c c' :=
  ⟨hnone _ _ _ hread, hkeeps _ _ _ hread hc⟩

/-- A type is no binding if nothing of that kind is behind it. -/
theorem passes_bindingTail (h : rules.Keep) (harg : BuildsArg arg TyArg.marked) {t : Ty}
    {value : Option Ty} (hread : bindingTail rules arg t c = some (value, c'))
    (hc : isSettled c.rest) :
    (value = some t ∧ c' = c) ∨ value = none ∧ ∃ out, Passes .type out c c' := by
  obtain ⟨held, between, hpeek, hread⟩ := bind_eq_some.mp hread
  obtain ⟨-, rfl⟩ := peek_eq_some hpeek
  split at hread
  case isTrue =>
    refine .inr (passes_none hread hc ?_ ?_)
    · refine (Keeps.operator rfl).before (Keeps.ahead.bind fun _ => ?_)
      exact .ite (keeps_constArgument h).returning h.plusType.discard.returning
    · refine .bind fun _ => .bind fun _ => ?_
      exact .ite (.bind fun _ => .pure rfl) (.bind fun _ => .pure rfl)
  case isFalse =>
    obtain ⟨held, between, hpeek, hread⟩ := bind_eq_some.mp hread
    obtain ⟨-, rfl⟩ := peek_eq_some hpeek
    split at hread
    case isTrue =>
      refine .inr (passes_none hread hc ?_ ?_)
      · refine (Keeps.operator rfl).before ?_
        exact (Keeps.joined rfl (keeps_bound h harg false true) _).discard.returning
      · exact .bind fun _ => .bind fun _ => .pure rfl
    case isFalse =>
      obtain ⟨rfl, rfl⟩ := pure_eq_some.mp hread
      exact .inl ⟨rfl, rfl⟩

/-- A generic argument is kept if those inside its bounds are. -/
theorem buildsArg_genericArgOf (h : rules.Keep) (harg : BuildsArg arg TyArg.marked) :
    BuildsArg (genericArgOf rules arg) TyArg.marked := by
  intro c a c' hread hc
  rw [genericArgOf, ahead_bind] at hread
  split at hread
  case isTrue =>
    obtain ⟨name, after, hlifetime, hread⟩ := bind_eq_some.mp hread
    obtain ⟨rfl, rfl⟩ := pure_eq_some.mp hread
    exact ⟨(prints_lifetime c name after hlifetime hc).1,
      fitsMark_lifetime (lifetime_eq_some hlifetime).1⟩
  case isFalse hother =>
  rw [Bool.not_eq_true] at hother
  split at hread
  case isTrue hconst =>
    obtain ⟨⟨_, value⟩, after, hvalue, hread⟩ := bind_eq_some.mp hread
    obtain ⟨rfl, rfl⟩ := pure_eq_some.mp hread
    exact ⟨((keeps_constArgument h).captured hvalue hc).1,
      fitsMark_other (atAttribute_of_atConst hconst) hother⟩
  case isFalse =>
    obtain ⟨⟨value, tokens⟩, after, hvalue, hread⟩ := bind_eq_some.mp hread
    obtain ⟨inner, hinner, rfl, rfl⟩ := captured_eq_some hvalue
    obtain ⟨t, mid, htype, htail⟩ := bind_eq_some.mp hinner
    have hmark := fitsMark_other (h.start htype) hother
    have hpass := h.type true _ _ _ htype hc
    rcases passes_bindingTail h harg htail (hpass.isSettled hc) with ⟨rfl, rfl⟩ | ⟨rfl, out, htail⟩
    · obtain ⟨rfl, rfl⟩ := pure_eq_some.mp hread
      exact ⟨hpass.1, hmark⟩
    · obtain ⟨rfl, rfl⟩ := pure_eq_some.mp hread
      obtain ⟨hkept, hwritten⟩ := hpass.trans htail
      refine ⟨hkept.congr ?_, hmark⟩
      rw [TyArg.marked, hwritten]
      simp

/-- A generic argument is kept at every bound of the recursion, by induction on it. -/
theorem buildsArg_genericArgUpTo (h : rules.Keep) (n : Nat) :
    BuildsArg (genericArgUpTo rules n) TyArg.marked := by
  induction n with
  | zero => exact fun _ _ _ hread => nomatch hread
  | succ n ih => exact buildsArg_genericArgOf h ih

/-- A generic argument is kept, and it is marked where it is a lifetime. -/
theorem buildsArg_genericArg (h : rules.Keep) : BuildsArg (genericArg rules) TyArg.marked := by
  intro c a c' hread hc
  rw [genericArg, ahead_bind] at hread
  exact buildsArg_genericArgUpTo h _ c a c' hread hc

/-- The bounds of generic parameters and of types are kept. -/
theorem keeps_genericBound (h : rules.Keep) (allowCapture allowConst : Bool) :
    Keeps .type (bound rules (genericArg rules) allowCapture allowConst) :=
  keeps_bound h (buildsArg_genericArg h) allowCapture allowConst

/-- Bounds that plus signs join are kept whatever generic arguments stand in them. -/
theorem keeps_genericBounds (h : rules.Keep) (plus allowCapture allowConst : Bool) :
    Keeps .type (objectBounds rules (genericArg rules) plus allowCapture allowConst) :=
  keeps_objectBounds h (buildsArg_genericArg h) plus allowCapture allowConst

/-! ## Paths through types -/

/-- A segment is kept, as it is written from its value. -/
theorem keeps_segment (h : rules.Keep) (inExpr : Bool) :
    Keeps .type (discard <| segment (genericArg rules) inExpr) :=
  Keeps.discard fun _ _ _ hread hc =>
    ⟨_, (passes_segment (buildsArg_genericArg h) hread hc).1⟩

/-- The names behind a qualified type are kept with the colons between them. -/
theorem keeps_qualifiedNames (h : rules.Keep) (inExpr : Bool) : Keeps .type (do
    operator "::"
    discard <| segment (genericArg rules) inExpr
    discard <| repeatWhile (atOperator "::") do
      operator "::"
      discard <| segment (genericArg rules) inExpr) := by
  have hname := keeps_segment h inExpr
  refine (Keeps.operator rfl).before ?_
  refine hname.before ?_
  exact (Keeps.repeatWhile _ ((Keeps.operator rfl).before hname)).discard

/-- The trait of a qualified type is written from its value. -/
theorem builds_qualifiedTrait (h : rules.Keep) : Builds .list (do
    let (rooted, path) ← segments (genericArg rules) false
    return (rooted, path)) fun r => (Ty.path r.1 r.2).tokens := by
  intro c r c' hread hc
  obtain ⟨r', after, hpath, hread⟩ := bind_eq_some.mp hread
  obtain ⟨rfl, rfl⟩ := pure_eq_some.mp hread
  exact (passes_segments (buildsArg_genericArg h) hpath hc).1.1.of_type .list

/-- A path through a type is kept: what stands between its brackets is passed with and without a
trait, and the names behind them are kept. -/
theorem keeps_qualified (h : rules.Keep) (inExpr : Bool) : Keeps .type (do
    operator "<"
    discard rules.type
    if ← word? "as" then
      let (rooted, path) ← silently do
        let (rooted, path) ← segments (genericArg rules) false
        return (rooted, path)
      write (Ty.path rooted path).tokens
    operator ">"
    operator "::"
    discard <| segment (genericArg rules) inExpr
    discard <| repeatWhile (atOperator "::") do
      operator "::"
      discard <| segment (genericArg rules) inExpr) := by
  intro c _ c' hread hc
  obtain ⟨_, first, hopen, hread⟩ := bind_eq_some.mp hread
  have hfirst := isSettled_of_operator hopen hc
  obtain ⟨last, out, hinner, hread⟩ : ∃ last out, Passes .list out first last ∧ (do
      operator ">"
      operator "::"
      discard <| segment (genericArg rules) inExpr
      discard <| repeatWhile (atOperator "::") do
        operator "::"
        discard <| segment (genericArg rules) inExpr) last = some ((), c') := by
    obtain ⟨_, behind, htype, hread⟩ := bind_eq_some.mp hread
    obtain ⟨out, hbehind⟩ : ∃ out, Passes .list out first behind :=
      h.plusType.discard _ _ _ htype hfirst
    obtain ⟨there, mid, hword, hread⟩ := bind_eq_some.mp hread
    have hfront := hbehind.trans (prints_word? "as" _ _ _ hword (hbehind.isSettled hfirst))
    cases there with
    | false => exact ⟨mid, _, hfront, hread⟩
    | true =>
      obtain ⟨⟨rooted, path⟩, between, hpath, hread⟩ := bind_eq_some.mp hread
      obtain ⟨after, hsegments, rfl⟩ := silently_eq_some hpath
      have hkept := builds_qualifiedTrait h _ _ _ hsegments (hfront.isSettled hfirst)
      obtain ⟨_, last, hwrite, hread⟩ := bind_eq_some.mp hread
      exact ⟨last, _, hfront.trans (.of_write hwrite rfl hkept), hread⟩
  obtain ⟨_, behind, hclose, hread⟩ := bind_eq_some.mp hread
  have hpass := hinner.brackets hopen hclose .type
  obtain ⟨out', hafter⟩ := keeps_qualifiedNames h inExpr _ _ _ hread (hpass.isSettled hc)
  exact ⟨_, hpass.trans hafter⟩

/-- A path is written from its value, be it a plain one or one through a type. -/
theorem prints_pathForm (h : rules.Keep) (inExpr : Bool) :
    Prints .type (pathForm rules inExpr) Ty.tokens := by
  intro c t c' hread hc
  rcases ite_peek_eq_some hread with ⟨-, hread⟩ | ⟨-, hread⟩
  · obtain ⟨⟨_, tokens⟩, after, hpath, hread⟩ := bind_eq_some.mp hread
    obtain ⟨_, _, hwrite, hread⟩ := bind_eq_some.mp hread
    obtain ⟨rfl, rfl⟩ := pure_eq_some.mp hread
    obtain ⟨hkept, hwritten⟩ := (keeps_qualified h inExpr).captured hpath hc
    exact .of_write hwrite hwritten hkept
  · obtain ⟨⟨rooted, path⟩, after, hpath, hread⟩ := bind_eq_some.mp hread
    obtain ⟨rfl, rfl⟩ := pure_eq_some.mp hread
    exact (passes_segments (buildsArg_genericArg h) hpath hc).1

/-- A path is kept in every place, as its tokens can stand in a type. -/
theorem keeps_pathForm (h : rules.Keep) (inExpr : Bool) {place : Place} :
    Keeps place (pathForm rules inExpr) :=
  (prints_pathForm h inExpr).keeps.of_type place

/-- The rest of an invocation is kept whatever stands in its group. -/
theorem keeps_invocationBody {place : Place} : Keeps place invocationBody :=
  (Keeps.operator rfl).before Keeps.anyGroup.returning

end ServiceDispatch.Grammar
