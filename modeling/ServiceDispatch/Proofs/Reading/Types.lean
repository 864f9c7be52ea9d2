import ServiceDispatch.Grammar.Types
import ServiceDispatch.Proofs.Reading.Lexing
import ServiceDispatch.Proofs.Reading.Readers
import ServiceDispatch.Proofs.Resolution.Written

/-!
# Reading types

A path of names is read as such a path before the end of a type, and a group as a tuple, an array or
a slice. Whether a punctuation character is joint to the next one matters within `::` only.
-/

namespace ServiceDispatch.Grammar

open ServiceDispatch.Lexer (memberTokens)

variable {ts rest tail : List Token} {t : Token} {rules : Rules}

/-! ## What stands ahead -/

/-- An operator is not ahead if another token than its first character is. -/
theorem atOperator_eq_false {op : String} {c : Char} (hop : op.toList.head? = some c)
    (hts : ∀ joint, ts.head? ≠ some (.punct c joint)) : atOperator op ts = false := by
  rw [atOperator]
  cases hchars : op.toList with
  | nil =>
    rw [hchars] at hop
    exact nomatch hop
  | cons d ds =>
    obtain rfl : d = c := by
      rw [hchars] at hop
      exact Option.some.inj hop
    cases ts with
    | nil => cases ds <;> rfl
    | cons t ts =>
      cases t with
      | punct e joint =>
        have hne : (d == e) = false := by
          rw [beq_eq_false_iff_ne]
          rintro rfl
          exact hts joint rfl
        cases ds <;> simp [atOperatorChars, hne]
      | ident name => cases ds <;> rfl
      | literal text => cases ds <;> rfl
      | group d' body => cases ds <;> rfl

/-- An operator of one character is ahead whether or not it is joint. -/
theorem atOperator_singleton {op : String} {c : Char} (hop : op.toList = [c]) (hquote : c ≠ '\'')
    (joint : Bool) (ts : List Token) : atOperator op (.punct c joint :: ts) = true := by
  rw [atOperator, hop, atOperatorChars, beq_self_eq_true, Bool.true_and, bne_iff_ne]
  exact hquote

/-- Two colons are ahead if the first one is joint. -/
theorem atOperator_colons (joint : Bool) (ts : List Token) :
    atOperator "::" (.punct ':' true :: .punct ':' joint :: ts) = true := rfl

/-- Whether a type ends before some tokens: there are none, or a separator is ahead. -/
def Closes (tail : List Token) : Prop :=
  ∀ t, tail.head? = some t → ∃ c ∈ [',', '>', ';'], ∃ joint, t = .punct c joint

/-- A type ends with its group, where no token is left. -/
theorem Closes.nil : Closes [] := fun _ h => nomatch h

/-- A type ends before a separator: a comma, a semicolon or a closing bracket. -/
theorem Closes.cons {c : Char} (hc : c ∈ [',', '>', ';']) (joint : Bool) (ts : List Token) :
    Closes (.punct c joint :: ts) := by
  intro t ht
  obtain rfl := Option.some.inj ht
  exact ⟨c, hc, joint, rfl⟩

/-- No operator goes on with a type after its end. -/
theorem Closes.atOperator_eq_false (htail : Closes tail) {op : String} {c : Char}
    (hop : op.toList.head? = some c) (hc : c ∉ [',', '>', ';']) : atOperator op tail = false := by
  refine Grammar.atOperator_eq_false hop fun joint hhead => ?_
  obtain ⟨d, hd, joint', heq⟩ := htail _ hhead
  obtain ⟨rfl, -⟩ := Token.punct.inj heq
  exact hc hd

/-- Whether nothing behind a type goes on with it: neither a segment or arguments, nor the mark of
an invocation, nor a further bound. -/
def Ends (tail : List Token) : Prop :=
  ∀ c ∈ [':', '<', '!', '+'], ∀ joint, tail.head? ≠ some (.punct c joint)

/-- No such operator is ahead after the end of a type. -/
theorem Ends.atOperator_eq_false (htail : Ends tail) {op : String} {c : Char}
    (hop : op.toList.head? = some c) (hc : c ∈ [':', '<', '!', '+']) : atOperator op tail = false :=
  Grammar.atOperator_eq_false hop (htail c hc)

/-- Nothing goes on with a type that is closed, neither a path nor a bound. -/
theorem Closes.ends (htail : Closes tail) : Ends tail := by
  intro c hc joint hhead
  obtain ⟨d, hd, joint', heq⟩ := htail _ hhead
  obtain ⟨rfl, -⟩ := Token.punct.inj heq
  simp only [List.mem_cons, List.not_mem_nil, or_false] at hc hd
  rcases hd with rfl | rfl | rfl <;> exact absurd hc (by decide)

/-- Whether a word may be the first one of a path. -/
def BeginsPath (name : String) : Prop := name = "crate" ∨ name ∉ keywords

/-- A name is no keyword, so that no keyword is ahead where one stands. -/
theorem atWord_eq_false_of_name {name w : String} (hname : name ∉ keywords) (hw : w ∈ keywords)
    (ts : List Token) : atWord w (.ident name :: ts) = false := by
  rw [atWord, beq_eq_false_iff_ne]
  rintro rfl
  exact hname hw

/-- A word that begins a path is no other keyword. -/
theorem BeginsPath.atWord_eq_false {name w : String} (hname : BeginsPath name) (hw : w ∈ keywords)
    (hcrate : w ≠ "crate") (ts : List Token) : atWord w (.ident name :: ts) = false := by
  rcases hname with hname | hname
  · rw [atWord, beq_eq_false_iff_ne, hname]
    exact hcrate.symm
  · exact atWord_eq_false_of_name hname hw ts

/-- The tokens that may begin a type. -/
inductive BeginsType : Token → Prop where
  | word {name : String} (hname : BeginsPath name) : BeginsType (.ident name)
  | colon (joint : Bool) : BeginsType (.punct ':' joint)
  | ampersand (joint : Bool) : BeginsType (.punct '&' joint)
  | paren (body : List Token) : BeginsType (.group .paren body)
  | bracket (body : List Token) : BeginsType (.group .bracket body)

namespace BeginsType

/-- Where a type begins no other operator is ahead. -/
theorem atOperator_eq_false (ht : BeginsType t) {op : String} {c : Char}
    (hop : op.toList.head? = some c) (hcolon : c ≠ ':') (hampersand : c ≠ '&')
    (ts : List Token) : atOperator op (t :: ts) = false := by
  refine Grammar.atOperator_eq_false hop fun joint hhead => ?_
  obtain rfl := Option.some.inj hhead
  cases ht with
  | colon => exact hcolon rfl
  | ampersand => exact hampersand rfl

/-- Where a type begins no keyword but `crate` is ahead. -/
theorem atWord_eq_false (ht : BeginsType t) {w : String} (hw : w ∈ keywords) (hcrate : w ≠ "crate")
    (ts : List Token) : atWord w (t :: ts) = false := by
  cases ht with
  | word hname => exact hname.atWord_eq_false hw hcrate ts
  | colon => rfl
  | ampersand => rfl
  | paren => rfl
  | bracket => rfl

/-- Where a type begins no lifetime is ahead, as none of its first tokens is a quote. -/
theorem atLifetime_eq_false (ht : BeginsType t) (ts : List Token) :
    atLifetime (t :: ts) = false := by
  cases ht <;> rfl

/-- Where a type begins neither a literal nor a block is ahead. -/
theorem atValue_eq_false (ht : BeginsType t) (ts : List Token) :
    (atLiteral (t :: ts) || atGroup .brace (t :: ts)) = false := by
  cases ht with
  | word hname =>
    have htrue := hname.atWord_eq_false (by decide : "true" ∈ keywords) (by decide) ts
    have hfalse := hname.atWord_eq_false (by decide : "false" ∈ keywords) (by decide) ts
    rw [atWord] at htrue hfalse
    rw [atLiteral, htrue, hfalse]
    rfl
  | colon => rfl
  | ampersand => rfl
  | paren => rfl
  | bracket => rfl

end BeginsType

namespace Leaves

/-- An operator of one character leaves what follows it, with and without another character joined
to it. -/
theorem operator_singleton {op : String} {c : Char} (hop : op.toList = [c]) (hquote : c ≠ '\'')
    (joint : Bool) (ts : List Token) :
    Leaves (Grammar.operator op) (.punct c joint :: ts) ts () := by
  have hread : Leaves (Grammar.operator op) ([.punct c joint] ++ ts) ts () :=
    operator (atOperator_singleton hop hquote joint ts) (by rw [hop]; rfl)
  exact hread

/-- Two colons leave what follows them. -/
theorem colons (joint : Bool) (ts : List Token) :
    Leaves (Grammar.operator "::") (.punct ':' true :: .punct ':' joint :: ts) ts () := by
  have hread : Leaves (Grammar.operator "::") ([.punct ':' true, .punct ':' joint] ++ ts) ts () :=
    operator (atOperator_colons joint ts) rfl
  exact hread

/-! ## Paths -/

variable {arg : Reader TyArg} {inExpr : Bool}

/-- A name is neither `Self` nor a word that is a segment by itself. -/
theorem atWord_of_name {name : String} (hname : name ∉ keywords) (ts : List Token) :
    (atWord "super" (.ident name :: ts) || atWord "self" (.ident name :: ts) ||
        atWord "crate" (.ident name :: ts) || atWord "try" (.ident name :: ts)) = false ∧
      atWord "Self" (.ident name :: ts) = false := by
  have hword {w : String} (hw : w ∈ keywords) := atWord_eq_false_of_name hname hw ts
  rw [hword (by decide), hword (by decide), hword (by decide), hword (by decide)]
  exact ⟨rfl, hword (by decide)⟩

/-- A name without arguments is read as a segment, where neither a bracket nor a turbofish follows.
-/
theorem segment_plain {name : String} (hname : BeginsPath name)
    (hangle : atOperator "<" ts = false)
    (hfish : (atOperator "::" ts && atOperator "<" (ts.drop 2)) = false) :
    Leaves (segment arg inExpr) (.ident name :: ts) ts (.mk name .none) := by
  unfold segment
  refine bind (ahead _) ?_
  by_cases hcrate : name = "crate"
  · subst hcrate
    exact bind (anyWord _ ts) (pure _ ts)
  · have hname := hname.resolve_left hcrate
    obtain ⟨hkeywords, hself⟩ := atWord_of_name hname ts
    simp only [hkeywords, hself, Bool.false_eq_true, if_false]
    refine bind (Leaves.name hname ts) (bind (ahead ts) ?_)
    rw [hangle, hfish, Bool.and_false, Bool.false_and, Bool.false_and, Bool.or_false,
      if_neg Bool.false_ne_true]
    exact pure _ ts

/-- A name with arguments in angle brackets is read as a segment. Neither of the two operators that
begin with the bracket stands there, so that the bracket alone counts. -/
theorem segment_angled {name : String} (hname : name ∉ keywords) {args : List TyArg}
    (hargs : Separates (atOperator ">") "," arg ts rest args) (hlength : args.length ≤ ts.length)
    (hclose : Leaves (Grammar.operator ">") rest tail ())
    (hequals : ∀ joint, ts.head? ≠ some (.punct '=' joint))
    (hless : ∀ joint, ts.head? ≠ some (.punct '<' joint)) (joint : Bool) :
    Leaves (segment arg false) (.ident name :: .punct '<' joint :: ts) tail
      (.mk name (.angled false args false)) := by
  obtain ⟨hkeywords, hself⟩ := atWord_of_name hname (.punct '<' joint :: ts)
  have hangle : atOperator "<" (.punct '<' joint :: ts) = true :=
    atOperator_singleton rfl (by decide) joint ts
  have hequal : atOperator "<=" (.punct '<' joint :: ts) = false := by
    have hsecond : atOperator "=" ts = false := atOperator_eq_false rfl hequals
    rw [atOperator] at hsecond ⊢
    simpa [atOperatorChars] using fun _ => hsecond
  have hshift : atOperator "<<=" (.punct '<' joint :: ts) = false := by
    have hsecond : atOperator "<=" ts = false := atOperator_eq_false rfl hless
    rw [atOperator] at hsecond ⊢
    simpa [atOperatorChars] using fun _ => hsecond
  have hcolons : atOperator "::" (.punct '<' joint :: ts) = false :=
    atOperator_eq_false rfl fun _ h => nomatch h
  have hangled : Leaves (angledArgs arg) (.punct '<' joint :: ts) tail
      (.angled false args false) := by
    refine bind (operator?_none hcolons) (bind (operator_singleton rfl (by decide) joint ts) ?_)
    exact bind (separated hargs hlength) (bind hclose (pure _ tail))
  unfold segment
  refine bind (ahead _) ?_
  simp only [hkeywords, hself, Bool.false_eq_true, if_false]
  refine bind (Leaves.name hname _) (bind (ahead _) ?_)
  simp only [hangle, hequal, hshift, Bool.not_false, Bool.and_true, Bool.true_or, if_true]
  exact bind (silently hangled) (bind (write _ tail) (pure _ tail))

/-- Names after separators are read as segments, the last one with its arguments. -/
theorem repeats_members {args : PathArgs} {names : List String} (hne : names ≠ [])
    (hnames : ∀ name ∈ names, name ∉ keywords)
    (hlast : ∀ name ∉ keywords,
      Leaves (segment arg inExpr) (.ident name :: ts) tail (.mk name args))
    (hend : atOperator "::" tail = false) :
    Repeats (fun ts => atOperator "::" ts && !atGroup .paren (ts.drop 2))
      (do Grammar.operator "::"; segment arg inExpr) (memberTokens names ++ ts) tail
      (Segment.ofNames args names) := by
  have hstop : (atOperator "::" tail && !atGroup .paren (tail.drop 2)) = false := by
    rw [hend, Bool.false_and]
  induction names with
  | nil => exact absurd rfl hne
  | cons name names ih =>
    obtain ⟨hname, hothers⟩ := List.forall_mem_cons.mp hnames
    cases names with
    | nil => exact .cons rfl (bind (colons false _) (hlast name hname)) (.nil hstop)
    | cons next names =>
      refine .cons rfl (bind (colons false _) ?_) (ih (List.cons_ne_nil next names) hothers)
      refine segment_plain (.inr hname) (atOperator_eq_false rfl fun _ h => nomatch h) ?_
      rw [Bool.and_eq_false_iff]
      exact .inr (atOperator_eq_false rfl fun _ h => nomatch h)

/-- The separator in front of a path from another crate. -/
def rootTokens (rooted : Bool) : List Token :=
  if rooted then [.punct ':' true, .punct ':' false] else []

/-- Names are read as a path, with arguments after the last one. -/
theorem segments {rooted : Bool} {args : PathArgs} {first : String} {names : List String}
    (hfirst : BeginsPath first) (hnames : ∀ name ∈ names, name ∉ keywords)
    (hcrate : first = "crate" → names ≠ [])
    (hlast : ∀ name ∉ keywords,
      Leaves (segment arg inExpr) (.ident name :: ts) tail (.mk name args))
    (hend : atOperator "::" tail = false) :
    Leaves (Grammar.segments arg inExpr)
      (rootTokens rooted ++ .ident first :: (memberTokens names ++ ts)) tail
      (rooted, Segment.ofNames args (first :: names)) := by
  have hrooted : Leaves (operator? "::")
      (rootTokens rooted ++ .ident first :: (memberTokens names ++ ts))
      (.ident first :: (memberTokens names ++ ts)) rooted := by
    cases rooted with
    | true => exact operator?_some rfl (colons false _)
    | false => exact operator?_none (atOperator_eq_false rfl fun _ h => nomatch h)
  unfold Grammar.segments
  refine bind hrooted ?_
  cases names with
  | nil =>
    have hname : first ∉ keywords := hfirst.resolve_left fun h => absurd rfl (hcrate h)
    refine bind (hlast first hname) (bind (repeatWhile (.nil ?_) (Nat.zero_le _)) (pure _ tail))
    rw [hend, Bool.false_and]
  | cons name names =>
    have hmembers := repeats_members (List.cons_ne_nil name names) hnames hlast hend
    have hlength : (Segment.ofNames args (name :: names)).length ≤
        (memberTokens (name :: names) ++ ts).length := by
      have hcount := congrArg List.length (Segment.map_name_ofNames args (name :: names))
      rw [List.length_map] at hcount
      rw [hcount, List.length_append, memberTokens, List.length_flatMap]
      simp
      omega
    refine bind (segment_plain hfirst (atOperator_eq_false rfl fun _ h => nomatch h) ?_) ?_
    · rw [Bool.and_eq_false_iff]
      exact .inr (atOperator_eq_false rfl fun _ h => nomatch h)
    · exact bind (repeatWhile hmembers hlength) (pure _ tail)

/-- A path takes no arguments in parentheses where none are ahead. -/
theorem withCallArgs_none (htail : atCallArgs tail = false) (path : List Segment) :
    Leaves (withCallArgs rules path) tail tail path := by
  unfold withCallArgs
  split
  · refine bind (peek_false htail) ?_
    rw [Bool.and_false, if_neg Bool.false_ne_true]
    exact pure path tail
  · exact pure path tail

/-- Whether none of the marks and words is ahead that may stand before the path of a trait. -/
def NoModifier (ts : List Token) : Prop :=
  atLifetime ts = false ∧ atGroup .paren ts = false ∧
    (∀ w ∈ ["use", "for", "const"], atWord w ts = false) ∧
    ∀ op ∈ ["~", "?", "*"], atOperator op ts = false

/-- Nothing of this stands at the beginning of a path. -/
theorem noModifier_path (rooted : Bool) {first : String} (hfirst : BeginsPath first)
    (ts : List Token) : NoModifier (rootTokens rooted ++ .ident first :: ts) := by
  cases rooted with
  | true => exact ⟨rfl, rfl, fun _ _ => rfl, by simp [rootTokens, atOperator, atOperatorChars]⟩
  | false =>
    refine ⟨rfl, rfl, fun w hw => ?_, fun op hop => ?_⟩
    · have hkeyword : ∀ w ∈ ["use", "for", "const"], w ∈ keywords ∧ w ≠ "crate" := by decide
      exact hfirst.atWord_eq_false (hkeyword w hw).1 (hkeyword w hw).2 ts
    · simp only [List.mem_cons, List.not_mem_nil, or_false] at hop
      rcases hop with rfl | rfl | rfl <;> exact atOperator_eq_false rfl fun _ h => nomatch h

/-- A path is read and written as a single bound, if no other bound follows. -/
theorem objectBounds_path {arg : Reader TyArg} {rooted : Bool} {path : List Segment}
    (hts : NoModifier ts) (hpath : Leaves (Grammar.segments arg false) ts tail (rooted, path))
    (hcall : atCallArgs tail = false) (hplus : atOperator "+" tail = false)
    (plus allowCapture allowConst : Bool) :
    Writes (objectBounds rules arg plus allowCapture allowConst) ts tail ()
      (Ty.path rooted path).tokens := by
  obtain ⟨hlifetime, hparen, hwords, hoperators⟩ := hts
  have htrait :
      Writes (traitBound rules arg allowConst) ts tail () (Ty.path rooted path).tokens := by
    have hsilent : Leaves (traitPath rules arg) ts tail (rooted, path) :=
      bind hpath (bind (withCallArgs_none hcall path) (pure _ tail))
    unfold traitBound
    refine Writes.quiet_bind (Writes.peek (hwords "for" (by decide))) ?_
    rw [if_neg Bool.false_ne_true]
    refine Writes.quiet_bind (Writes.ahead ts) ?_
    rw [hoperators "~" (by decide), hwords "const" (by decide), if_neg Bool.false_ne_true,
      if_neg Bool.false_ne_true]
    refine Writes.quiet_bind (Writes.operator?_none (hoperators "?" (by decide))) ?_
    refine Writes.quiet_bind (Writes.require rfl ts) ?_
    refine Writes.quiet_bind (Writes.peek (hwords "for" (by decide))) ?_
    refine Writes.quiet_bind (Writes.require rfl ts) ?_
    exact Writes.quiet_bind (Writes.silently hsilent) (Writes.write _ tail)
  have hbound : Writes (bound rules arg allowCapture allowConst) ts tail .trait
      (Ty.path rooted path).tokens := by
    unfold bound
    refine Writes.quiet_bind (Writes.ahead ts) ?_
    rw [hlifetime, hwords "use" (by decide), hparen, if_neg Bool.false_ne_true,
      if_neg Bool.false_ne_true, if_neg Bool.false_ne_true]
    exact Writes.bind_quiet htrait (Writes.pure _ tail)
  unfold objectBounds
  refine Writes.bind_quiet hbound ?_
  cases plus with
  | false =>
    rw [if_neg Bool.false_ne_true]
    exact Writes.quiet_bind (Writes.pure [] tail) (Writes.require rfl tail)
  | true =>
    rw [if_pos rfl]
    refine Writes.quiet_bind (Writes.repeatStep_nil ?_) (Writes.require rfl tail)
    refine Writes.quiet_bind (Writes.operator?_none hplus) ?_
    exact Writes.pure none tail

/-- A type that is a path is read as such. -/
theorem pathType {rooted plus : Bool} {path : List Segment}
    (hpath : Leaves (Grammar.segments (genericArg rules) false) ts tail (rooted, path))
    (hangle : atOperator "<" ts = false) (htail : Ends tail) :
    Leaves (pathType rules plus none) ts tail (.path rooted path) := by
  have hbang : atBang tail = false := by
    rw [atBang, htail.atOperator_eq_false rfl (by decide), Bool.false_and]
  have hplus : atOperator "+" tail = false := htail.atOperator_eq_false rfl (by decide)
  unfold Grammar.pathType pathForm
  refine bind (bind (peek_false hangle) (bind hpath (pure _ tail))) ?_
  refine bind (peek_false hbang) ?_
  simp only [Bool.and_false, Bool.false_eq_true, if_false]
  refine bind (peek_false hplus) ?_
  simp only [Option.isSome_none, Bool.and_false, Bool.or_false, Bool.false_eq_true, if_false]
  exact pure _ tail

end Leaves

/-! ## Types -/

namespace Leaves

/-- Names with arguments after the last one are read as a type that is a path. -/
theorem typeForm_names (plus rooted : Bool) {args : PathArgs} {first : String} {names : List String}
    (hfirst : BeginsPath first) (hnames : ∀ name ∈ names, name ∉ keywords)
    (hcrate : first = "crate" → names ≠ [])
    (hlast : ∀ name ∉ keywords, Leaves (segment (genericArg rules) false) (.ident name :: ts) tail
      (.mk name args))
    (htail : Ends tail) :
    Leaves (typeForm rules plus) (rootTokens rooted ++ .ident first :: (memberTokens names ++ ts))
      tail (.path rooted (Segment.ofNames args (first :: names))) := by
  have hsegments : Leaves (Grammar.segments (Grammar.genericArg rules) false)
      (rootTokens rooted ++ .ident first :: (memberTokens names ++ ts)) tail
      (rooted, Segment.ofNames args (first :: names)) :=
    segments hfirst hnames hcrate hlast (htail.atOperator_eq_false rfl (by decide))
  have hangle : atOperator "<" (rootTokens rooted ++ .ident first :: (memberTokens names ++ ts)) =
      false := by
    refine atOperator_eq_false rfl fun joint hhead => ?_
    cases rooted <;> exact nomatch hhead
  have hpath : Leaves (Grammar.pathType rules plus none)
      (rootTokens rooted ++ .ident first :: (memberTokens names ++ ts)) tail
      (.path rooted (Segment.ofNames args (first :: names))) := pathType hsegments hangle htail
  unfold typeForm
  cases rooted with
  | true =>
    refine bind (peek_false rfl) ?_
    simp only [Bool.false_eq_true, if_false]
    exact bind (pure none _) (bind (ahead _) hpath)
  | false =>
    have hword {w : String} (hw : w ∈ keywords) (hne : w ≠ "crate") :=
      hfirst.atWord_eq_false hw hne (memberTokens names ++ ts)
    have hat : atName (.ident first :: (memberTokens names ++ ts)) = true ∨
        atWord "crate" (.ident first :: (memberTokens names ++ ts)) = true := by
      rcases hfirst with hfirst | hfirst
      · exact .inr (beq_iff_eq.mpr hfirst)
      · exact .inl (by simpa [atName] using hfirst)
    refine bind (peek_false (hword (by decide) (by decide))) ?_
    simp only [Bool.false_eq_true, if_false]
    refine bind (pure none _) (bind (ahead _) ?_)
    simp only [rootTokens, Bool.false_eq_true, if_false, List.nil_append,
      show atGroup .paren (.ident first :: (memberTokens names ++ ts)) = false from rfl,
      hword (by decide : "fn" ∈ keywords) (by decide),
      hword (by decide : "unsafe" ∈ keywords) (by decide),
      hword (by decide : "extern" ∈ keywords) (by decide), Bool.or_false]
    rw [if_pos (by rcases hat with hat | hat <;> simp [hat])]
    exact hpath

/-- A group in parentheses is read as a type in parentheses. -/
theorem typeForm_paren {plus : Bool} {type : Ty} {body : List Token}
    (hparen : Leaves (parenType rules plus) (.group .paren body :: ts) tail type) :
    Leaves (typeForm rules plus) (.group .paren body :: ts) tail type := by
  unfold typeForm
  refine bind (peek_false rfl) ?_
  simp only [Bool.false_eq_true, if_false]
  exact bind (pure none _) (bind (ahead _) hparen)

/-- A path behind `dyn` is read as an object type. -/
theorem typeForm_dyn {plus rooted : Bool} {path : List Segment} (hts : NoModifier ts)
    (hpath : Leaves (Grammar.segments (Grammar.genericArg rules) false) ts tail (rooted, path))
    (hcall : atCallArgs tail = false) (hplus : atOperator "+" tail = false) :
    Leaves (typeForm rules plus) (.ident "dyn" :: ts) tail
      (.object (.ident "dyn" :: (Ty.path rooted path).tokens)) := by
  have hown : Writes (do
      Grammar.word "dyn"
      objectBounds rules (Grammar.genericArg rules) plus false false) (.ident "dyn" :: ts) tail ()
      (.ident "dyn" :: (Ty.path rooted path).tokens) :=
    Writes.bind (Writes.word "dyn" ts) (objectBounds_path hts hpath hcall hplus plus false false)
  have hstar : atOperator "*" ((.ident "dyn" :: ts : List Token).drop 1) = false :=
    hts.2.2.2 "*" (by decide)
  unfold typeForm
  refine bind (peek_false rfl) ?_
  simp only [Bool.false_eq_true, if_false]
  refine bind (pure none _) (bind (ahead _) ?_)
  rw [if_neg (by simp [atGroup]), if_neg (by simp [atWord]), if_neg (by simp [atName, keywords,
    atWord, atOperator, atOperatorChars]), if_pos (by rfl), hstar, if_neg Bool.false_ne_true]
  exact bind (bind (Writes.captured hown) (pure _ tail)) (pure _ tail)

/-- An element type in brackets is read as a slice. -/
theorem typeForm_slice {plus : Bool} {elem : Ty} {body : List Token}
    (helem : Leaves rules.type body [] elem) :
    Leaves (typeForm rules plus) (.group .bracket body :: ts) ts (.slice elem) := by
  unfold typeForm
  refine bind (peek_false rfl) ?_
  simp only [Bool.false_eq_true, if_false]
  refine bind (pure none _) (bind (ahead _) ?_)
  refine group (bind helem (bind (operator?_none rfl) ?_)) ts
  exact pure _ []

/-- An element type and a length in brackets are read as an array. -/
theorem typeForm_array {plus : Bool} {elem : Ty} {body length own : List Token} {form : ExprForm}
    {joint : Bool} (helem : Leaves rules.type body (.punct ';' joint :: length) elem)
    (hlength : Leaves (captured rules.expr) length [] (form, own)) :
    Leaves (typeForm rules plus) (.group .bracket body :: ts) ts (.array elem own) := by
  unfold typeForm
  refine bind (peek_false rfl) ?_
  simp only [Bool.false_eq_true, if_false]
  refine bind (pure none _) (bind (ahead _) ?_)
  have hsemicolon : Leaves (operator? ";") (.punct ';' joint :: length) length true :=
    operator?_some (atOperator_singleton rfl (by decide) joint length)
      (operator_singleton rfl (by decide) joint length)
  refine group (bind helem (bind hsemicolon (bind hlength ?_))) ts
  exact pure _ []

/-- A type after an ampersand and a lifetime is read as a reference. -/
theorem typeForm_reference {plus mutable : Bool} {name : String} {target : Ty} {joint : Bool}
    (hmutable : Leaves (word? "mut") ts rest mutable)
    (htarget : Leaves (rules (.type false)) rest tail target) :
    Leaves (typeForm rules plus) (.punct '&' joint :: .punct '\'' true :: .ident name :: ts) tail
      (.reference (some name) mutable target) := by
  unfold typeForm
  refine bind (peek_false rfl) ?_
  simp only [Bool.false_eq_true, if_false]
  refine bind (pure none _) (bind (ahead _) ?_)
  have hlifetime : Leaves lifetime? (.punct '\'' true :: .ident name :: ts) ts (some name) :=
    bind (peek_true rfl) (bind (lifetime name ts) (pure _ ts))
  exact bind (operator_singleton rfl (by decide) joint _) (bind hlifetime
    (bind hmutable (bind htarget (pure _ tail))))

/-- A type after an ampersand without a lifetime is read as a reference, too. -/
theorem typeForm_borrow {plus mutable : Bool} {target : Ty} {joint : Bool}
    (hlifetime : atLifetime ts = false) (hmutable : Leaves (word? "mut") ts rest mutable)
    (htarget : Leaves (rules (.type false)) rest tail target) :
    Leaves (typeForm rules plus) (.punct '&' joint :: ts) tail
      (.reference none mutable target) := by
  unfold typeForm
  refine bind (peek_false rfl) ?_
  simp only [Bool.false_eq_true, if_false]
  refine bind (pure none _) (bind (ahead _) ?_)
  have hampersand : atOperator "&" (.punct '&' joint :: ts) = true :=
    atOperator_singleton rfl (by decide) joint ts
  have hnone : Leaves lifetime? ts ts none := bind (peek_false hlifetime) (pure none ts)
  rw [if_neg (by simp [atGroup]), if_neg (by simp [atWord]), if_neg (by simp [atName, atWord,
    atOperator, atOperatorChars]), if_neg (by simp [atWord]), if_neg (by simp [atGroup]),
    if_neg (by simp [atOperator, atOperatorChars]), if_pos hampersand]
  exact bind (operator_singleton rfl (by decide) joint _) (bind hnone
    (bind hmutable (bind htarget (pure _ tail))))

/-- Nothing in parentheses is the empty tuple. -/
theorem parenForm_nil : Leaves (parenForm rules) [] [] (.whole (.tuple [] false)) :=
  bind (ahead []) (pure _ [])

/-- Types in parentheses are a tuple if a comma follows the first one. -/
theorem parenForm_cons {first : Ty} {others : List Ty} {trailing joint : Bool} (ht : BeginsType t)
    (hfirst : Leaves rules.type (t :: ts) (.punct ',' joint :: rest) first)
    (hothers : Leaves (commaList rules.type) rest [] (others, trailing)) :
    Leaves (parenForm rules) (t :: ts) []
      (.whole (.tuple (first :: others) (others.isEmpty || trailing))) := by
  have hcomma : Leaves (operator? ",") (.punct ',' joint :: rest) rest true :=
    operator?_some (atOperator_singleton rfl (by decide) joint rest)
      (operator_singleton rfl (by decide) joint rest)
  unfold parenForm
  refine bind (ahead _) ?_
  simp only [List.isEmpty_cons, ht.atLifetime_eq_false,
    ht.atOperator_eq_false (rfl : "?".toList.head? = _) (by decide) (by decide), Bool.false_eq_true,
    if_false]
  refine bind hfirst (bind hcomma (bind hothers ?_))
  exact pure _ []

/-- A whole type in parentheses is what stands in them. -/
theorem parenType_whole {plus : Bool} {type : Ty} {body : List Token}
    (hbody : Leaves (parenForm rules) body [] (.whole type)) :
    Leaves (parenType rules plus) (.group .paren body :: ts) ts type :=
  captured_bind (group hbody ts) fun _ => pure type ts

/-- A type is read as its form, and written from it. -/
theorem readType {plus : Bool} {type : Ty} (htype : Leaves (typeForm rules plus) ts tail type) :
    Leaves (readType rules plus) ts tail type :=
  bind (silently htype) (bind (write _ tail) (pure type tail))

/-! ## Generic arguments -/

/-- One generic argument is read as such, however deep others may be nested. -/
theorem genericArg {a : TyArg} (harg : ∀ arg, Leaves (genericArgOf rules arg) ts tail a) :
    Leaves (genericArg rules) ts tail a :=
  bind (ahead ts) (harg _)

/-- A lifetime is read as an argument, unless bounds are added to it. -/
theorem genericArgOf_lifetime {name : String} (htail : Closes tail) (arg : Reader TyArg) :
    Leaves (genericArgOf rules arg) (.punct '\'' true :: .ident name :: tail) tail
      (.lifetime name) := by
  have hplus : atOperator "+" tail = false := htail.atOperator_eq_false rfl (by decide)
  unfold genericArgOf
  refine bind (ahead _) ?_
  rw [if_pos (by rw [skipToken, hplus]; rfl)]
  exact bind (lifetime name tail) (pure _ tail)

/-- A literal or a block is read as a constant. -/
theorem genericArgOf_const {value : List Token} (hlifetime : atLifetime ts = false)
    (hvalue : (atLiteral ts || atGroup .brace ts) = true)
    (hread : Leaves (captured (constArgument rules)) ts tail ((), value)) (arg : Reader TyArg) :
    Leaves (genericArgOf rules arg) ts tail (.const value) := by
  unfold genericArgOf
  refine bind (ahead _) ?_
  rw [hlifetime, Bool.false_and, if_neg Bool.false_ne_true, if_pos hvalue]
  exact bind hread (pure _ tail)

/-- A type is read as an argument, if no lifetime and no value begins there. -/
theorem genericArgOf_type {type : Ty} (hlifetime : atLifetime ts = false)
    (hvalue : (atLiteral ts || atGroup .brace ts) = false) (htype : Leaves rules.type ts tail type)
    (htail : Closes tail) (arg : Reader TyArg) :
    Leaves (genericArgOf rules arg) ts tail (.type type) := by
  have hequals : atOperator "=" tail = false := htail.atOperator_eq_false rfl (by decide)
  have hcolon : atOperator ":" tail = false := htail.atOperator_eq_false rfl (by decide)
  unfold genericArgOf
  refine bind (ahead _) ?_
  rw [hlifetime, Bool.false_and, if_neg Bool.false_ne_true, hvalue, if_neg Bool.false_ne_true]
  refine captured_bind (a := some type) (bind htype ?_) fun own => pure _ tail
  refine bind (peek_false hequals) ?_
  rw [Bool.and_false, if_neg Bool.false_ne_true]
  refine bind (peek_false hcolon) ?_
  rw [Bool.and_false, if_neg Bool.false_ne_true]
  exact pure _ tail

end Leaves

end ServiceDispatch.Grammar
