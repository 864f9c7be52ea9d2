import ServiceDispatch.Proofs.Reading.Functions

/-!
# Reading files

A file with comments and one `impl` block behind them, in which one function stands, is read as that
block.
-/

namespace ServiceDispatch

namespace Lexer

variable {cs rest : List Char}

/-! ## Comments -/

/-- A line ends at its line break if it has none in itself. -/
theorem scanLine_append (hcs : ∀ c ∈ cs, c ≠ '\n' ∧ c ≠ '\r') (rest : List Char) :
    scanLine (cs ++ '\n' :: rest) = (cs, '\n' :: rest) := by
  induction cs with
  | nil => rfl
  | cons c cs ih =>
    obtain ⟨⟨hfeed, hreturn⟩, hothers⟩ := List.forall_mem_cons.mp hcs
    rw [List.cons_append, scanLine, ih hothers]
    · exact hfeed
    · exact fun _ h => absurd h hreturn

/-- A line behind two slashes and a space is read as no tokens. -/
theorem Reads.comment {text comment : String} (htext : text = "// " ++ comment)
    (hcomment : comment.toList.all fun c => c != '\n' && c != '\r') (rest : List Char) :
    Reads text.toList ('\n' :: rest) [] := by
  have hchars : text.toList = '/' :: '/' :: ' ' :: comment.toList := by
    rw [htext]
    simp
  have hline : scanLine (text.toList ++ '\n' :: rest) = (text.toList, '\n' :: rest) := by
    refine scanLine_append ?_ rest
    rw [hchars]
    simpa using hcomment
  have hskip : skipOne? (text.toList ++ '\n' :: rest) = some ('\n' :: rest) := by
    rw [hchars] at hline ⊢
    exact congrArg (fun line => some line.2) hline
  refine ⟨1, by rw [hchars]; simp, fun fuel done frames => ?_⟩
  conv => lhs; unfold readOn
  rw [hskip]
  rfl

/-- An empty line is read as no tokens at every depth, since it has no indentation. -/
theorem Reads.emptyLine (depth : Nat) (rest : List Char) :
    Reads (CodeBuffer.written depth [.line ""]).toList rest [] := by
  have hchars : (CodeBuffer.written depth [.line ""]).toList = ['\n'] := by
    simp [CodeBuffer.written, CodeBuffer.Step.text, CodeBuffer.renderLine]
  rw [hchars]
  exact Reads.newline rest

/-- A text that begins with a comment is read as a source file. -/
theorem Reads.fileTokens? {text : List Char} {ts : List Token} (hstart : text.head? = some '/')
    (hread : Reads text [] ts) : fileTokens? text = some ts := by
  cases text with
  | nil => exact nomatch hstart
  | cons c cs =>
    obtain rfl := Option.some.inj hstart
    exact hread.tokens? rfl

end Lexer

namespace Grammar

open CodeBuffer (IsBalanced Step block written)
open ServiceDispatch.Lexer (EndsWord IsWord Reads)

variable {ts rest tail : List Token} {t : Token} {rules : Rules}

/-! ## Functions -/

/-- Where no attribute of the enclosing group is ahead none is read. -/
theorem Leaves.innerAttributes_nil
    (hts : (atOperator "#" ts && atOperator "!" (ts.drop 1)) = false) :
    Leaves (innerAttributes rules) ts ts [] :=
  repeatWhile (.nil hts) (Nat.zero_le _)

/-- A body is read if its inside is read as statements. -/
theorem Leaves.attributedBlock {n : Nat} {units : List Unit} (hfollow : StatementsFollow ts)
    (hlength : units.length ≤ ts.length)
    (hunits : Steps (nextStatement (rulesUpTo n)) ts [] units) (tail : List Token) :
    Leaves (attributedBlock (rulesUpTo (n + 1))) (.group .brace ts :: tail) tail [] := by
  have hnone : (atOperator "#" ts && atOperator "!" (ts.drop 1)) = false := by
    rw [Bool.and_eq_false_iff]
    left
    refine atOperator_eq_false rfl fun joint hhead => ?_
    rcases hfollow _ hhead with ⟨w, -, heq⟩ | ⟨joint', heq⟩
    · exact nomatch heq
    · exact absurd (Token.punct.inj heq).1 (by decide)
  exact group (bind (innerAttributes_nil hnone)
    (bind (leaves_statements hlength hunits) (pure [] []))) tail

/-- Whether steps spell the inside of an `impl` block with a single function. -/
structure SpellsFunction (steps : List Step) (method : MethodDecl) : Prop where
  balanced : IsBalanced steps
  spells : ∀ depth rest, ∃ ts, Reads (written depth steps).toList rest ts ∧ ts ≠ [] ∧
    atOperator "!" (ts.drop 1) = false ∧ ∀ n, nesting ts ≤ n →
      Leaves (implMember (rulesUpTo n)) ts [] (some method)

/-- A word with arguments behind it in brackets behind a hash is read as these tokens. -/
theorem reads_attribute {name args : String} {argTokens : List Token} (hname : IsWord name)
    (hargs : ∀ rest, Reads args.toList (')' :: rest) argTokens)
    (hstart : (args.toList ++ [')']).head? ≠ some '/') (rest : List Char) :
    Reads (['#'] ++ ('[' :: (name.toList ++ '(' :: (args.toList ++ [')']) ++ [']']))) rest
      [.punct '#' false, .group .bracket [.ident name, .group .paren argTokens]] := by
  have hparen (rest : List Char) : Reads ('(' :: (args.toList ++ [')'])) rest
      [.group .paren argTokens] := Reads.group (d := .paren) (hargs rest) hstart
  have hbracket : Reads ('[' :: (name.toList ++ '(' :: (args.toList ++ [')']) ++ [']'])) rest
      [.group .bracket [.ident name, .group .paren argTokens]] := by
    refine Reads.group (d := .bracket)
      ((Reads.word hname (.cons (by decide) _)).append (hparen _)) fun hhead => ?_
    obtain ⟨c, cs, hchars, hc⟩ := hname.exists_isIdentStart
    rw [hchars] at hhead
    obtain rfl := Option.some.inj hhead
    exact absurd hc (by decide)
  exact (Reads.separator (by decide : '#' ∈ Lexer.separators) _).append hbracket

/-- Whether tokens are a public signature in front of a body. -/
def HeadsFunction (s : Signature) (own : List Token) : Prop :=
  ∃ ts, own = .ident "pub" :: .ident "fn" :: ts ∧ ∀ n body tail, nesting (.ident "fn" :: ts) ≤ n →
    Leaves (signature (rulesUpTo n) false) (.ident "fn" :: (ts ++ .group .brace body :: tail))
      (.group .brace body :: tail) s

/-- A signature behind `pub` heads a function, which has no attributes and is visible everywhere. -/
theorem SpellsSignature.exists_headsFunction {text head : String} {s : Signature}
    (htext : SpellsSignature text s) (hhead : head.toList = "pub".toList ++ ([' '] ++ text.toList))
    (rest : List Char) : ∃ own, Reads head.toList (' ' :: rest) own ∧ HeadsFunction s own := by
  obtain ⟨ts, hread, hleaves⟩ := htext rest
  have hall := (Reads.word (by decide : IsWord "pub") (.cons (by decide) _)).append
    ((Reads.space _).append hread)
  rw [hhead]
  exact ⟨_, hall, ts, rfl, hleaves⟩

/-- A signature with a body spells a function behind an attribute. -/
theorem SpellsSignature.function {text head : String} {s : Signature}
    (htext : SpellsSignature text s) (hhead : head.toList = "pub".toList ++ ([' '] ++ text.toList))
    {body : List Step} (hbody : SpellsStatements body) {name args line : String}
    (hname : IsWord name ∧ name ∉ keywords) {argTokens : List Token}
    (hargs : ∀ rest, Reads args.toList (')' :: rest) argTokens)
    (hstart : (args.toList ++ [')']).head? ≠ some '/')
    (hline : line.toList =
      ['#'] ++ ('[' :: (name.toList ++ '(' :: (args.toList ++ [')']) ++ [']']))) :
    SpellsFunction (.line line :: block head body)
      ⟨[⟨false, [name], .list argTokens⟩], .everyone, s.name, s.isAsync, s.isUnsafe, s.hasReceiver,
        s.isGeneric, s.params, s.result⟩ := by
  have hne : line ≠ "" := by
    rintro rfl
    exact nomatch hline
  refine ⟨(CodeBuffer.isBalanced_line line).append (hbody.balanced.block _), fun depth rest => ?_⟩
  have hattribute := reads_attribute hname.1 hargs hstart
  rw [← hline] at hattribute
  obtain ⟨own, inner, hblock, ⟨ts, rfl, hsignature⟩, hinner⟩ :=
    Lexer.exists_reads_block hbody.balanced depth rest (htext.exists_headsFunction hhead)
      fun rest => hbody.spells (depth + 1) rest
  have hwritten : (written depth (.line line :: block head body)).toList =
      (written depth [.line line]).toList ++ (written depth (block head body)).toList := by
    rw [← String.toList_append]
    exact congrArg String.toList (CodeBuffer.written_append depth [.line line] _)
  rw [hwritten]
  refine ⟨_, (Reads.line hne depth (hattribute _)).append hblock, List.cons_ne_nil _ _, rfl, ?_⟩
  intro n hn
  have hback := (nesting_le_of_append [.punct '#' false,
    .group .bracket [.ident name, .group .paren argTokens], .ident "pub"] _ hn).2
  obtain ⟨hsizeSignature, hsizeBody⟩ := nesting_le_of_append (.ident "fn" :: ts) _ hback
  have hlevels : nesting inner + 1 ≤ n := by
    rw [nesting, Token.sizeAll, Token.size] at hsizeBody
    rw [nesting]
    omega
  obtain ⟨m, rfl⟩ : ∃ m, n = m + 1 := ⟨n - 1, by omega⟩
  obtain ⟨units, hlength, hunits⟩ := hinner.2 m (by omega)
  exact Leaves.implMember_function hname.2 (hsignature (m + 1) inner [] hsizeSignature)
    (Leaves.attributedBlock hinner.1 hlength hunits [])

/-! ## Blocks -/

namespace Leaves

/-- Behind `impl` a type and a group with a function are read as a block. -/
theorem implItem {selfType : Ty} {body : List Token} {method : MethodDecl} (ht : BeginsType t)
    (htype : Leaves rules.type (t :: ts) (.group .brace body :: tail) selfType)
    (hne : body ≠ []) (hattribute : atOperator "!" (body.drop 1) = false)
    (hmember : Leaves (implMember rules) body [] (some method)) :
    Leaves (implItem rules [] .inherited) (.ident "impl" :: t :: ts) tail
      (some fun _ => .impl ⟨[], false, false, selfType, [method]⟩) := by
  have hoperator {op : String} (hop : op ∈ ["<", "?", "!"]) : atOperator op (t :: ts) = false := by
    simp only [List.mem_cons, List.not_mem_nil, or_false] at hop
    rcases hop with rfl | rfl | rfl
    · exact ht.atOperator_eq_false (rfl : "<".toList.head? = _) (by decide) (by decide) ts
    · exact ht.atOperator_eq_false (rfl : "?".toList.head? = _) (by decide) (by decide) ts
    · exact ht.atOperator_eq_false (rfl : "!".toList.head? = _) (by decide) (by decide) ts
  have hgenerics : atGenericParams (t :: ts) = false := by
    rw [atGenericParams, hoperator (by decide), Bool.false_and]
  have hconst : (atWord "const" (t :: ts) ||
      (atOperator "?" (t :: ts) && atWord "const" ((t :: ts).drop 1))) = false := by
    rw [ht.atWord_eq_false (by decide) (by decide), hoperator (by decide), Bool.false_and,
      Bool.or_false]
  have hnegative : (atOperator "!" (t :: ts) && !atGroup .brace ((t :: ts).drop 1)) = false := by
    rw [hoperator (by decide), Bool.false_and]
  have hisEmpty : (!body.isEmpty) = true := by
    cases body with
    | nil => exact absurd rfl hne
    | cons t ts => rfl
  have hmembers : Leaves (do
      let inner ← innerAttributes rules
      return (inner, ← untilEnd (implMember rules))) body [] ([], [some method]) :=
    bind (innerAttributes_nil (by rw [hattribute, Bool.and_false]))
      (bind (repeatWhile (.cons hisEmpty hmember (.nil rfl)) (List.length_pos_iff.mpr hne))
        (pure _ []))
  have hwhere : Leaves (whereClause rules) (.group .brace body :: tail) (.group .brace body :: tail)
      false := bind (silently (word?_none rfl)) (pure _ _)
  exact bind (discard (word?_none rfl)) (bind (discard (word?_none rfl)) (bind (word "impl" _)
    (bind (peek_false hgenerics) (bind (pure _ _) (bind (peek_false hconst)
      (bind (peek_false hnegative) (bind htype (bind (word?_none rfl) (bind (pure _ _)
        (bind (discard hwhere) (bind (group hmembers tail) (pure _ tail))))))))))))

/-- A block is read as an item, without attributes and with no visibility before it. -/
theorem readItem_impl {decl : ImplDecl}
    (hblock : Leaves (Grammar.implItem rules [] .inherited) (.ident "impl" :: ts) tail
      (some fun _ => .impl decl)) :
    Leaves (readItem rules) (.ident "impl" :: ts) tail (.impl decl) := by
  have hscope : Leaves visibility (.ident "impl" :: ts) (.ident "impl" :: ts) .inherited :=
    bind (word?_none rfl) (pure _ _)
  have hform : Leaves (itemForm rules [] .inherited) (.ident "impl" :: ts) tail
      (some fun _ => .impl decl) := bind (ahead _) hblock
  have hitem : Leaves (orAsWritten do
      let outer ← outerAttributes rules
      itemForm rules outer (← visibility)) (.ident "impl" :: ts) tail (some fun _ => .impl decl) :=
    get_bind fun _ _ => bind (bind (outerAttributes_nil rfl) (bind hscope hform)) (pure _ tail)
  exact collecting_bind hitem fun _ => pure _ tail

/-- A file of one item without attributes of its own is read as this item. -/
theorem file_item {item : Item} (hitem : Leaves (rules .item) (.ident "impl" :: ts) [] item) :
    Leaves (file rules) (.ident "impl" :: ts) [] [item] := by
  have hattributes : Leaves (collecting (innerAttributes rules)) (.ident "impl" :: ts)
      (.ident "impl" :: ts) ([], []) := fun written found => ⟨written, found, rfl⟩
  exact bind hattributes (bind (repeatWhile (.cons rfl hitem (.nil rfl))
    (Nat.succ_le_succ (Nat.zero_le _))) (pure _ []))

end Leaves

/-- A whole token sequence is read if no token is left. -/
theorem readAll?_eq_some {α : Type} {p : Rules → Reader α} {a : α}
    (hp : Leaves (p (rulesUpTo (nesting ts))) ts [] a) : readAll? p ts = some a := by
  obtain ⟨written, found, hp⟩ := hp [] []
  have hfront : readFront? p ts = some (a, []) := by
    rw [readFront?, hp]
    rfl
  rw [readAll?, hfront]

/-- Whether tokens are `impl` and a type in front of a group. -/
def HeadsImpl (selfType : Ty) (own : List Token) : Prop :=
  ∃ t ts, own = .ident "impl" :: t :: ts ∧ BeginsType t ∧ ∀ n tail, nesting (t :: ts) ≤ n →
    Ends tail → Leaves (typeAt true n) (t :: (ts ++ tail)) tail selfType

/-- A type behind `impl` heads a block without a trait and without parameters. -/
theorem SpellsPath.exists_headsImpl {text : String} {selfType : Ty}
    (htext : SpellsPath text selfType) (rest : List Char) :
    ∃ own, Reads ("impl " ++ text).toList (' ' :: rest) own ∧ HeadsImpl selfType own := by
  have hchars : ("impl " ++ text).toList = "impl".toList ++ ([' '] ++ text.toList) := by simp
  obtain ⟨t, ts, hread, ht, hleaves⟩ := htext true (' ' :: rest) (.cons (by decide) rest)
  have hall := (Reads.word (by decide : IsWord "impl") (.cons (by decide) _)).append
    ((Reads.space _).append hread)
  rw [hchars]
  exact ⟨_, hall, t, ts, rfl, ht, hleaves⟩

/-- Comments and a block with one function behind them are read as a file with this block. -/
theorem SpellsFunction.ofFile? {body : List Step} {method : MethodDecl}
    (hbody : SpellsFunction body method) {typeText : String} {selfType : Ty}
    (htype : SpellsPath typeText selfType) {comments : List Step} (hbalanced : IsBalanced comments)
    (hcomments : ∀ rest, Reads (written 0 comments).toList rest [])
    (hstart : (written 0 comments).toList.head? = some '/') :
    Item.ofFile? (written 0 (comments ++ block ("impl " ++ typeText) body)) =
      some [.impl ⟨[], false, false, selfType, [method]⟩] := by
  obtain ⟨own, inner, hread, ⟨t, ts, rfl, ht, htypeLeaves⟩, hne, hattribute, hmember⟩ :=
    Lexer.exists_reads_block hbody.balanced 0 [] htype.exists_headsImpl
      fun rest => hbody.spells 1 rest
  have hall := (hcomments _).append hread
  have htokens : Lexer.fileTokens?
      (written 0 (comments ++ block ("impl " ++ typeText) body)).toList =
      some (.ident "impl" :: t :: (ts ++ [.group .brace inner])) := by
    rw [CodeBuffer.written_append, hbalanced, String.toList_append]
    refine Reads.fileTokens? ?_ hall
    rw [List.head?_append, hstart]
    rfl
  have hsizes :
      nesting (t :: ts) + 1 ≤ nesting (.ident "impl" :: t :: (ts ++ [.group .brace inner])) ∧
      nesting inner + 1 ≤ nesting (.ident "impl" :: t :: (ts ++ [.group .brace inner])) := by
    have hparts : nesting (.ident "impl" :: t :: (ts ++ [.group .brace inner])) =
        8 + 8 * (Token.sizeAll (t :: ts) + Token.sizeAll [.group .brace inner]) + 16 := by
      rw [← List.cons_append, nesting_cons, nesting, sizeAll_append]
      rfl
    have hgroup : Token.sizeAll [.group .brace inner] = Token.sizeAll inner + 1 := rfl
    rw [hparts, hgroup, nesting, nesting]
    omega
  obtain ⟨n, hn⟩ : ∃ n, nesting (.ident "impl" :: t :: (ts ++ [.group .brace inner])) = n + 1 :=
    ⟨_, rfl⟩
  have hends : Ends [.group .brace inner] := fun _ _ _ h => by cases h
  have hitem : Leaves (rulesUpTo (n + 1) .item)
      (.ident "impl" :: t :: (ts ++ [.group .brace inner])) []
      (.impl ⟨[], false, false, selfType, [method]⟩) :=
    Leaves.readItem_impl (Leaves.implItem ht (htypeLeaves n _ (by omega) hends) hne hattribute
      (hmember n (by omega)))
  have hfile := Leaves.file_item hitem
  rw [← hn] at hfile
  rw [Item.ofFile?, htokens]
  exact readAll?_eq_some hfile

end Grammar

end ServiceDispatch
