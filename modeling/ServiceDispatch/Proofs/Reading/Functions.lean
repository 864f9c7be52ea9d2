import ServiceDispatch.Proofs.Reading.Branches

/-!
# Reading functions

A signature with named parameters is read in front of a body, and a function with an attribute and
a body as a member of an `impl` block.
-/

namespace ServiceDispatch.Grammar

open CodeBuffer (IsBalanced Step block written)
open ServiceDispatch.Lexer (EndsWord IsWord Reads)

variable {ts rest tail : List Token} {t : Token} {rules : Rules}

/-! ## Refusals -/

namespace Refuses

variable {α β : Type} {p : Reader α} {f : α → Reader β} {a : α}

/-- A reader that is refused at once is refused, whatever would be read behind it. -/
theorem bind_left (hp : Refuses p ts) : Refuses (p >>= f) ts := by
  intro written found
  show (p ⟨ts, written, found⟩).bind _ = none
  rw [hp]
  rfl

/-- A reader is refused if what goes on from its front is. -/
theorem bind_right (hp : Leaves p ts rest a) (hf : Refuses (f a) rest) : Refuses (p >>= f) ts := by
  intro written found
  obtain ⟨written', found', hp⟩ := hp written found
  show (p ⟨ts, written, found⟩).bind _ = none
  rw [hp]
  exact hf written' found'

/-- A word is refused where it is not ahead, whatever stands there. -/
theorem word {w : String} (hw : atWord w ts = false) : Refuses (word w) ts := by
  intro written found
  show ((require (atWord w ts) : Reader Unit) _).bind _ = none
  rw [hw]
  rfl

end Refuses

/-! ## Parameters -/

/-- The readers of the parameters of a function with their attributes. -/
def paramAt (rules : Rules) : Reader Param := do
  discard (outerAttributes rules)
  functionParam rules

/-- Whether a token is a name. -/
def IsName (t : Token) : Prop := ∃ name ∉ keywords, t = .ident name

namespace Leaves

/-- Where a name is ahead there is no receiver: neither a sign nor a modifier nor `self` is a name.
-/
theorem refuses_receiver {name : String} (hname : name ∉ keywords) (ts : List Token) :
    Refuses (receiver rules) (.ident name :: ts) := by
  have hword {w : String} (hw : w ∈ keywords) := atWord_eq_false_of_name hname hw ts
  exact .bind_right (operator?_none (atOperator_eq_false rfl fun _ h => by cases h))
    (.bind_right (discard (word?_none (hword (by decide))))
      (.bind_left (.word (hword (by decide)))))

/-- A name and a type with a colon between them are a parameter. -/
theorem paramAt {name : String} {type : Ty} {n : Nat} (hname : name ∉ keywords) (ht : BeginsType t)
    (htype : Leaves (rulesUpTo (n + 1)).type (t :: ts) tail type) :
    Leaves (paramAt (rulesUpTo (n + 1))) (.ident name :: .punct ':' false :: t :: ts) tail
      (.typed type) := by
  have hpattern : Leaves (rulesUpTo (n + 1)).pattern (.ident name :: .punct ':' false :: t :: ts)
      (.punct ':' false :: t :: ts) .other :=
    readPattern_name hname false (.punct (by decide) _)
  have hdots : atOperator "..." (t :: ts) = false :=
    ht.atOperator_eq_false (rfl : "...".toList.head? = _) (by decide) (by decide) ts
  have hnone {op : String} {c : Char} (hop : op.toList.head? = some c) :
      atOperator op (.ident name :: .punct ':' false :: t :: ts) = false :=
    atOperator_eq_false hop fun _ h => nomatch h
  refine bind (discard (outerAttributes_nil (hnone rfl))) ?_
  unfold functionParam
  refine bind (ahead _) ?_
  rw [hnone rfl, if_neg Bool.false_ne_true]
  refine bind (attempt_none (refuses_receiver hname _)) ?_
  rw [Option.isSome_none, if_neg Bool.false_ne_true, if_neg (by simp [atOperator, atOperatorChars])]
  exact bind (discard hpattern) (bind (operator_singleton rfl (by decide) false _)
    (bind (operator?_none hdots) (bind htype (pure _ tail))))

/-- A reader goes on behind two others as behind both of them together. -/
theorem bind_both {α β γ : Type} {p : Reader α} {q : Reader β} {f : β → Reader γ} {b : β} {c : γ}
    {after : List Token} (hpq : Leaves (do Functor.discard p; q) ts rest b)
    (hf : Leaves (f b) rest after c) :
    Leaves (do Functor.discard p; let b ← q; f b) ts after c := by
  have hall := bind hpq hf
  rwa [bind_assoc] at hall

/-- Parameters with commas between them are read to the end of the group. -/
theorem functionParams {params : List Param}
    (h : Separates List.isEmpty "," (Grammar.paramAt rules) ts rest params)
    (htyped : ∀ param ∈ params, ∃ type, param = .typed type) (hlength : params.length ≤ ts.length) :
    Leaves (do functionParams rules ((← Grammar.ahead).length + 2) []) ts rest params := by
  have hupTo : ∀ n (done : List Param), params.length < n →
      Leaves (Grammar.functionParams rules n done) ts rest (done.reverse ++ params) := by
    clear hlength
    induction h with
    | @nil ts hstop =>
      intro n done hn
      obtain ⟨n, rfl⟩ := Nat.exists_eq_add_one_of_ne_zero (Nat.ne_zero_of_lt hn)
      rw [List.append_nil]
      exact bind (peek_true hstop) (pure _ ts)
    | @last ts rest param hgo hitem hstop =>
      intro n done hn
      obtain ⟨n, rfl⟩ := Nat.exists_eq_add_one_of_ne_zero (Nat.ne_zero_of_lt hn)
      obtain ⟨type, rfl⟩ := htyped param List.mem_cons_self
      rw [← List.reverse_cons]
      exact bind (peek_false hgo) (bind_both hitem (bind (peek_true hstop) (pure _ rest)))
    | @cons ts rest after more param next params hgo hitem hon hseparator hmore ih =>
      intro n done hn
      obtain ⟨n, rfl⟩ := Nat.exists_eq_add_one_of_ne_zero (Nat.ne_zero_of_lt hn)
      obtain ⟨⟨type, rfl⟩, hothers⟩ := List.forall_mem_cons.mp htyped
      have hrest := ih hothers n (.typed type :: done) (by simpa using hn)
      rw [List.reverse_cons, List.append_assoc, List.singleton_append] at hrest
      exact bind (peek_false hgo) (bind_both hitem
        (bind (peek_false hon) (bind hseparator hrest)))
  exact bind (ahead ts) (hupTo _ [] (by omega))

/-- A name, parameters and a result are read as a signature in front of a body. -/
theorem signature {name : String} {types : List Ty} {result : Ty} {params body own : List Token}
    (hname : name ∉ keywords)
    (hparams : Leaves (do Grammar.functionParams rules ((← Grammar.ahead).length + 2) []) params []
      (types.map .typed))
    (hresult : Leaves rules.type own (.group .brace body :: tail) result) (joint : Bool) :
    Leaves (signature rules false)
      (.ident "fn" :: .ident name :: .group .paren params :: .punct '-' true :: .punct '>' joint ::
        own) (.group .brace body :: tail)
      ⟨name, false, false, false, false, types, some result⟩ := by
  have hgenerics : Leaves (genericParams rules)
      (.group .paren params :: .punct '-' true :: .punct '>' joint :: own)
      (.group .paren params :: .punct '-' true :: .punct '>' joint :: own) ⟨false, false⟩ :=
    bind (peek_false rfl) (pure _ _)
  have harrow :
      Leaves (Grammar.operator "->") ([.punct '-' true, .punct '>' joint] ++ own) own () :=
    operator rfl rfl
  have hresultType : Leaves (resultType rules true) (.punct '-' true :: .punct '>' joint :: own)
      (.group .brace body :: tail) (some result) :=
    bind (operator?_some rfl harrow) (bind hresult (pure _ _))
  have hwhere : Leaves (whereClause rules) (.group .brace body :: tail) (.group .brace body :: tail)
      false := bind (silently (word?_none rfl)) (pure _ _)
  have htypes {f : Param → Option Ty} (hf : ∀ type, f (.typed type) = some type) :
      (types.map Param.typed).filterMap f = types := by
    rw [List.filterMap_map, show f ∘ Param.typed = some from funext hf, List.filterMap_some]
  refine bind (discard (word?_none rfl)) (bind (word?_none rfl) (bind (word?_none rfl)
    (bind (bind (word?_none rfl) (pure () _)) (bind (word "fn" _) (bind (Leaves.name hname _)
      (bind hgenerics (bind (group hparams _) (bind hresultType (bind (discard hwhere) ?_)))))))))
  rw [htypes fun _ => rfl]
  cases types <;> exact pure _ _

end Leaves

/-- Whether a text spells a parameter of a type. -/
def SpellsParam (text : String) (type : Ty) : Prop :=
  Spells IsName (fun n => paramAt (rulesUpTo n)) text (.typed type)

/-- A name and a type with a colon between them spell a parameter. -/
theorem SpellsType.param {name text : String} {type : Ty} (htype : SpellsType text type)
    (hname : IsWord name ∧ name ∉ keywords) : SpellsParam (name ++ ": " ++ text) type := by
  intro rest hrest
  have hchars : (name ++ ": " ++ text).toList =
      name.toList ++ ([':'] ++ ([' '] ++ text.toList)) := by simp
  obtain ⟨t, ts, hread, ht, hleaves⟩ := htype.spells true rest hrest
  have hcolon := Reads.separator (by decide : ':' ∈ Lexer.separators)
    ([' '] ++ text.toList ++ rest)
  have hall := (Reads.word hname.1 (.cons (by decide) _)).append
    (hcolon.append ((Reads.space _).append hread))
  rw [hchars]
  refine ⟨_, _, hall, ⟨name, hname.2, rfl⟩, fun n tail hn htail => ?_⟩
  have hsize : nesting (t :: ts) ≤ n :=
    (nesting_le_of_append [.ident name, .punct ':' false] (t :: ts) hn).2
  obtain ⟨m, rfl⟩ : ∃ m, n = m + 1 := by
    rw [nesting] at hsize
    exact ⟨n - 1, by omega⟩
  exact Leaves.paramAt hname.2 ht (hleaves (m + 1) tail hsize htail)

/-! ## Signatures -/

/-- Whether a text spells a signature in front of a body. -/
def SpellsSignature (text : String) (s : Signature) : Prop :=
  ∀ rest, ∃ ts, Reads text.toList (' ' :: rest) (.ident "fn" :: ts) ∧
    ∀ n body tail, nesting (.ident "fn" :: ts) ≤ n →
      Leaves (signature (rulesUpTo n) false) (.ident "fn" :: (ts ++ .group .brace body :: tail))
        (.group .brace body :: tail) s

/-- The text of a signature is read as the tokens of its parts. -/
theorem reads_signature {name : String} {params result rest : List Char}
    {paramTokens resultTokens : List Token} (hname : IsWord name)
    (hparams : Reads params
      (')' :: ([' '] ++ (['-'] ++ (['>'] ++ ([' '] ++ result))) ++ rest)) paramTokens)
    (hstart : (params ++ [')']).head? ≠ some '/') (hresult : Reads result rest resultTokens) :
    Reads ("fn".toList ++ ([' '] ++ (name.toList ++ ('(' :: (params ++ [')']) ++
        ([' '] ++ (['-'] ++ (['>'] ++ ([' '] ++ result)))))))) rest
      (.ident "fn" :: .ident name :: .group .paren paramTokens :: .punct '-' true ::
        .punct '>' false :: resultTokens) := by
  have hminus : Reads ['-'] (['>'] ++ ([' '] ++ result) ++ rest) [.punct '-' true] :=
    Reads.separator (by decide) _
  have hgreater : Reads ['>'] ([' '] ++ result ++ rest) [.punct '>' false] :=
    Reads.separator (by decide) _
  have hback := (Reads.space _).append
    (hminus.append (hgreater.append ((Reads.space _).append hresult)))
  have hgroup := Reads.group (d := .paren) hparams hstart
  exact (Reads.word (by decide : IsWord "fn") (.cons (by decide) _)).append
    ((Reads.space _).append ((Reads.word hname (.cons (by decide) _)).append (hgroup.append hback)))

/-- A name, parameters and a result spell a signature. The text behind the name does not begin a
comment. -/
theorem spellsSignature {name result : String} {texts : List String} {types : List Ty} {type : Ty}
    (hname : IsWord name ∧ name ∉ keywords) (hparams : List.Forall₂ SpellsParam texts types)
    (hstart : (", ".intercalate texts ++ ")").toList.head? ≠ some '/')
    (hresult : SpellsPath result type) :
    SpellsSignature ("fn " ++ name ++ "(" ++ ", ".intercalate texts ++ ") -> " ++ result)
      ⟨name, false, false, false, false, types, some type⟩ := by
  intro rest
  have hchars : ("fn " ++ name ++ "(" ++ ", ".intercalate texts ++ ") -> " ++ result).toList =
      "fn".toList ++ ([' '] ++ (name.toList ++ ('(' :: ((", ".intercalate texts).toList ++ [')']) ++
        ([' '] ++ (['-'] ++ (['>'] ++ ([' '] ++ result.toList))))))) := by simp
  obtain ⟨t, ts, hread, -, hleaves⟩ := hresult true (' ' :: rest) (.cons (by decide) rest)
  have hgo : ∀ t ts, IsName t → List.isEmpty (t :: ts) = false := fun _ _ _ => rfl
  have hseparates := Spells.separates hgo (fun _ _ => rfl)
    (List.forall₂_map_right_iff.mpr hparams) (Lexer.Breaks.cons (by decide : ')' ∈ Lexer.breakChars)
      ([' '] ++ (['-'] ++ (['>'] ++ ([' '] ++ result.toList))) ++ ' ' :: rest))
  obtain ⟨params, hparamsRead, hlength, -, hparamsLeaves⟩ := hseparates
  rw [String.toList_append] at hstart
  rw [hchars]
  refine ⟨_, reads_signature hname.1 hparamsRead hstart hread, fun n body tail hn => ?_⟩
  have hback := (nesting_le_of_append [.ident "fn", .ident name] _ hn).2
  have hsizeParams : nesting params ≤ n :=
    nesting_le_of_group (Nat.le_succ_of_le (nesting_le_of_append [.group .paren params] _ hback).1)
  have hsizeResult : nesting (t :: ts) ≤ n :=
    (nesting_le_of_append [.group .paren params, .punct '-' true, .punct '>' false] (t :: ts)
      hback).2
  have hseparated := hparamsLeaves n [] hsizeParams .nil rfl
  rw [List.append_nil] at hseparated
  have htyped : ∀ param ∈ types.map Param.typed, ∃ type, param = .typed type := by
    intro param hparam
    obtain ⟨type, -, rfl⟩ := List.mem_map.mp hparam
    exact ⟨type, rfl⟩
  have hends : Ends (.group .brace body :: tail) := fun _ _ _ h => nomatch h
  have hsignature := Leaves.signature hname.2
    (Leaves.functionParams hseparated htyped (by simpa using hlength))
    (hleaves n (.group .brace body :: tail) hsizeResult hends) false
  simpa using hsignature

/-! ## Functions in blocks -/

namespace Leaves

/-- A word with arguments behind it in brackets behind a hash is an attribute. -/
theorem outerAttributes_list {name : String} {body : List Token} {joint : Bool}
    (hname : name ∉ keywords) (hts : atOperator "#" ts = false) :
    Leaves (outerAttributes rules)
      (.punct '#' joint :: .group .bracket [.ident name, .group .paren body] :: ts) ts
      [⟨false, [name], .list body⟩] := by
  have hunsafe : atWord "unsafe" [.ident name, .group .paren body] = false := by
    rw [atWord, beq_eq_false_iff_ne]
    rintro rfl
    exact hname (by decide)
  have hpath : Leaves Grammar.plainPath [.ident name, .group .paren body] [.group .paren body]
      (false, [name]) := plainPath false [] hname (List.forall_mem_nil _) rfl
  have hgroup : Leaves anyGroup [.group .paren body] [] (.paren, body) :=
    fun written found => ⟨.group .paren body :: written, found, rfl⟩
  have hbody : Leaves (attributeBody rules) [.ident name, .group .paren body] []
      ⟨false, [name], .list body⟩ :=
    bind (peek_false hunsafe) (bind hpath (bind (ahead _) (bind hgroup (pure _ []))))
  exact repeatWhile (.cons (atOperator_singleton rfl (by decide) joint _)
    (bind (operator_singleton rfl (by decide) joint _) (group hbody ts)) (.nil hts))
    (Nat.succ_le_succ (Nat.zero_le _))

/-- A function behind an attribute is read as a public member of an `impl` block. -/
theorem implMember_function {name : String} {s : Signature} {args body : List Token} {joint : Bool}
    (hname : name ∉ keywords)
    (hsignature : Leaves (Grammar.signature rules false) (.ident "fn" :: ts)
      (.group .brace body :: tail) s)
    (hbody : Leaves (attributedBlock rules) (.group .brace body :: tail) tail []) :
    Leaves (implMember rules)
      (.punct '#' joint :: .group .bracket [.ident name, .group .paren args] :: .ident "pub" ::
        .ident "fn" :: ts) tail
      (some ⟨[⟨false, [name], .list args⟩], .everyone, s.name, s.isAsync, s.isUnsafe,
        s.hasReceiver, s.isGeneric, s.params, s.result⟩) := by
  have hattributes : Leaves (outerAttributes rules) (.punct '#' joint ::
      .group .bracket [.ident name, .group .paren args] :: .ident "pub" :: .ident "fn" :: ts)
      (.ident "pub" :: .ident "fn" :: ts) [⟨false, [name], .list args⟩] :=
    outerAttributes_list hname rfl
  have hscope : Leaves visibility (.ident "pub" :: .ident "fn" :: ts) (.ident "fn" :: ts)
      .everyone := bind (word?_some "pub" _) (bind (ahead _) (pure _ _))
  have hmethod : Leaves (method rules) (.punct '#' joint ::
      .group .bracket [.ident name, .group .paren args] :: .ident "pub" :: .ident "fn" :: ts) tail
      (some ⟨[⟨false, [name], .list args⟩], .everyone, s.name, s.isAsync, s.isUnsafe,
        s.hasReceiver, s.isGeneric, s.params, s.result⟩) :=
    bind hattributes (bind hscope (bind (discard (word?_none rfl)) (bind hsignature
      (bind (operator?_none rfl) (bind hbody (pure _ tail))))))
  exact get_bind fun written found => bind (discard hattributes) (bind hscope
    (bind (peek_false rfl) (bind (ahead _) (bind (set ⟨_, written, found⟩ _) hmethod))))

end Leaves

end ServiceDispatch.Grammar
