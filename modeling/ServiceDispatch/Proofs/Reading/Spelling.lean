import ServiceDispatch.Grammar.Source
import ServiceDispatch.Proofs.Reading.Types

/-!
# Spelling types

A text spells a type if it is read as that type, whatever follows its end. Types are spelled by the
spellings of their parts with brackets, commas and separators between them.
-/

namespace ServiceDispatch.Grammar

open ServiceDispatch.Lexer (Breaks EndsWord IsWord Reads memberTokens)

variable {α : Type} {rest : List Char}

/-- The sizes of two token sequences add up. -/
theorem sizeAll_append (ts ts' : List Token) :
    Token.sizeAll (ts ++ ts') = Token.sizeAll ts + Token.sizeAll ts' := by
  induction ts with
  | nil => rw [List.nil_append, Token.sizeAll, Nat.zero_add]
  | cons t ts ih => rw [List.cons_append, Token.sizeAll, Token.sizeAll, ih, Nat.add_assoc]

/-- The nesting of a token adds to that of what stands behind it. -/
theorem nesting_cons (t : Token) (ts : List Token) :
    nesting (t :: ts) = 8 * t.size + nesting ts := by
  rw [nesting, nesting, Token.sizeAll]
  omega

/-- Every token counts, also a group without tokens in it. -/
theorem size_pos (t : Token) : 0 < t.size := by
  cases t <;> exact Nat.succ_pos _

/-- Tokens in front and behind nest no deeper than both together. -/
theorem nesting_le_of_append {n : Nat} (ts ts' : List Token) (hn : nesting (ts ++ ts') ≤ n) :
    nesting ts ≤ n ∧ nesting ts' ≤ n := by
  rw [nesting, sizeAll_append] at hn
  rw [nesting, nesting]
  omega

/-- What stands behind a token has one level to spare. -/
theorem nesting_le_of_cons {n : Nat} (t : Token) (ts : List Token)
    (hn : nesting (t :: ts) ≤ n + 1) : nesting ts ≤ n := by
  have hpos := size_pos t
  rw [nesting_cons] at hn
  omega

/-- What stands in a group has one level to spare. -/
theorem nesting_le_of_group {n : Nat} {d : Delimiter} {body : List Token}
    (hn : nesting [.group d body] ≤ n + 1) : nesting body ≤ n := by
  rw [nesting, Token.sizeAll, Token.size] at hn
  rw [nesting]
  omega

/-! ## Spellings -/

/-- Whether a text spells a value: before the end of a token it is read as tokens, the first of a
kind, from which the readers of enough nested forms have the value if a type ends behind them. -/
def Spells (begins : Token → Prop) (item : Nat → Reader α) (text : String) (a : α) : Prop :=
  ∀ rest, Breaks rest → ∃ t ts, Reads text.toList rest (t :: ts) ∧ begins t ∧
    ∀ n tail, nesting (t :: ts) ≤ n → Closes tail → Leaves (item n) (t :: (ts ++ tail)) tail a

/-- The readers of types. -/
def typeAt (plus : Bool) (n : Nat) : Reader Ty := rulesUpTo n (.type plus)

/-- The readers of generic arguments. -/
def argAt (n : Nat) : Reader TyArg := genericArg (rulesUpTo n)

/-- Whether no operator that goes on with a bracket, or closes it, begins with a token. -/
def BeginsArg (t : Token) : Prop := ∀ c ∈ ['=', '<', '>'], ∀ joint, t ≠ .punct c joint

/-- Where a type begins an argument may begin, which is a type then. -/
theorem BeginsType.beginsArg {t : Token} (ht : BeginsType t) : BeginsArg t := by
  rintro c hc joint rfl
  cases ht with
  | colon => exact absurd hc (by decide)
  | ampersand => exact absurd hc (by decide)

variable {begins : Token → Prop} {item : Nat → Reader α} {stop : List Token → Bool}

/-- Spellings with commas between them are read one after the other. The space behind a comma keeps
it apart from what follows. -/
theorem Spells.separates (hbegins : ∀ t ts, begins t → stop (t :: ts) = false)
    (hcomma : ∀ joint ts, stop (.punct ',' joint :: ts) = false) {texts : List String}
    {as : List α} (hspells : List.Forall₂ (Spells begins item) texts as) (hrest : Breaks rest) :
    ∃ ts, Reads (", ".intercalate texts).toList rest ts ∧ as.length ≤ ts.length ∧
      (∀ t, ts.head? = some t → begins t) ∧
      ∀ n tail, nesting ts ≤ n → Closes tail → stop tail = true →
        Separates stop "," (item n) (ts ++ tail) tail as := by
  induction hspells with
  | nil =>
    refine ⟨[], Reads.nil rest, Nat.le_refl 0, ?_, fun n tail _ _ hstop => .nil hstop⟩
    exact fun t ht => nomatch ht
  | @cons text a texts as hfirst hothers ih =>
    cases hothers with
    | nil =>
      obtain ⟨t, ts, hread, ht, hleaves⟩ := hfirst rest hrest
      refine ⟨t :: ts, by simpa using hread, by simp, ?_, ?_⟩
      · intro t' ht'
        exact Option.some.inj ht' ▸ ht
      · intro n tail hn htail hstop
        exact .last (hbegins t _ ht) (hleaves n tail hn htail) hstop
    | @cons next b texts as hnext hothers =>
      obtain ⟨more, hmore, hlength, -, hseparates⟩ := ih
      obtain ⟨t, ts, hread, ht, hleaves⟩ :=
        hfirst (',' :: ' ' :: ((", ".intercalate (next :: texts)).toList ++ rest))
          (.cons (by decide) _)
      have hcommaRead := Reads.separator (by decide : ',' ∈ Lexer.separators)
        (' ' :: ((", ".intercalate (next :: texts)).toList ++ rest))
      have hspace := Reads.space ((", ".intercalate (next :: texts)).toList ++ rest)
      refine ⟨t :: (ts ++ .punct ',' false :: more), ?_, ?_, ?_, ?_⟩
      · rw [String.intercalate_cons_cons, String.toList_append, String.toList_append,
          List.append_assoc]
        exact hread.append (hcommaRead.append (hspace.append hmore))
      · simp only [List.length_cons, List.length_append] at hlength ⊢
        omega
      · intro t' ht'
        exact Option.some.inj ht' ▸ ht
      · intro n tail hn htail hstop
        obtain ⟨hfront, hback⟩ := nesting_le_of_append (t :: ts) (.punct ',' false :: more) hn
        have hmoreSize := (nesting_le_of_append [.punct ',' false] more hback).2
        have hitem := hleaves n (.punct ',' false :: (more ++ tail)) hfront
          (.cons (by decide) false _)
        rw [List.cons_append, List.append_assoc, List.cons_append]
        exact .cons (hbegins t _ ht) hitem (hcomma false _)
          (Leaves.operator_singleton rfl (by decide) false _)
          (hseparates n tail hmoreSize htail hstop)

/-! ## Paths -/

/-- Whether a text spells the arguments of a name. -/
def SpellsArgs (text : String) (args : PathArgs) : Prop :=
  ∀ rest, Breaks rest → Breaks (text.toList ++ rest) ∧ ∃ ts, Reads text.toList rest ts ∧
    ∀ n tail, nesting ts ≤ n → Ends tail → ∀ name ∉ keywords,
      Leaves (segment (argAt n) false) (.ident name :: (ts ++ tail)) tail (.mk name args)

/-- No text spells no arguments, so that a path may end with a name. -/
theorem spellsArgs_none : SpellsArgs "" .none := by
  intro rest hrest
  refine ⟨hrest, [], Reads.nil rest, fun n tail _ htail name hname => ?_⟩
  refine Leaves.segment_plain (.inr hname) (htail.atOperator_eq_false rfl (by decide)) ?_
  rw [List.nil_append, htail.atOperator_eq_false rfl (by decide), Bool.false_and]

/-- Spellings of arguments in angle brackets spell the arguments of a name. -/
theorem spellsArgs_angled {texts : List String} {args : List TyArg}
    (hargs : List.Forall₂ (Spells BeginsArg argAt) texts args) :
    SpellsArgs ("<" ++ ", ".intercalate texts ++ ">") (.angled false args false) := by
  intro rest hrest
  have hbegins : ∀ t ts, BeginsArg t → atOperator ">" (t :: ts) = false :=
    fun t ts ht => atOperator_eq_false rfl fun joint hhead =>
      ht '>' (by decide) joint (Option.some.inj hhead)
  obtain ⟨ts, hread, hlength, hfront, hseparates⟩ := Spells.separates hbegins (fun _ _ => rfl) hargs
    (Lexer.Breaks.cons (by decide : '>' ∈ Lexer.breakChars) rest)
  have hopen := Reads.separator (by decide : '<' ∈ Lexer.separators)
    ((", ".intercalate texts).toList ++ ['>'] ++ rest)
  have hclose := Reads.separator (by decide : '>' ∈ Lexer.separators) rest
  have htext : ("<" ++ ", ".intercalate texts ++ ">").toList =
      ['<'] ++ ((", ".intercalate texts).toList ++ ['>']) := by simp
  rw [htext]
  refine ⟨.cons (by decide) _, _,
    hopen.append (hread.append hclose), fun n tail hn htail name hname => ?_⟩
  · have hsize := (nesting_le_of_append ts _ (nesting_le_of_append [_] _ hn).2).1
    have hend := hseparates n (.punct '>' (Lexer.atPunct rest) :: tail) hsize
      (.cons (by decide) _ tail) (atOperator_singleton rfl (by decide) _ tail)
    simp only [List.cons_append, List.nil_append, List.append_assoc]
    have hnot (c : Char) (hc : c ∈ ['=', '<']) (joint : Bool) :
        (ts ++ .punct '>' (Lexer.atPunct rest) :: tail).head? ≠ some (.punct c joint) := by
      intro hhead
      cases ts with
      | nil =>
        obtain ⟨rfl, -⟩ := Token.punct.inj (Option.some.inj hhead)
        exact absurd hc (by decide)
      | cons t ts =>
        exact hfront t rfl c (List.mem_append_left ['>'] hc) joint (Option.some.inj hhead)
    refine Leaves.segment_angled hname hend ?_ (Leaves.operator_singleton rfl (by decide) _ tail)
      (hnot '=' (by decide)) (hnot '<' (by decide)) _
    rw [List.length_append]
    omega

/-- The names of a path are read one after the other. -/
theorem reads_names (rooted : Bool) {first : String} {names : List String} (hfirst : IsWord first)
    (hnames : ∀ name ∈ names, IsWord name) (hrest : EndsWord rest) :
    Reads ((if rooted then [':', ':'] else []) ++
        (first.toList ++ names.flatMap fun name => ':' :: ':' :: name.toList)) rest
      (Leaves.rootTokens rooted ++ .ident first :: memberTokens names) := by
  have hmembers := Reads.members hnames hrest
  have hends : EndsWord ((names.flatMap fun name => ':' :: ':' :: name.toList) ++ rest) := by
    cases names with
    | nil => exact hrest
    | cons name names => exact .cons (by decide) _
  have hpath := (Reads.word hfirst hends).append hmembers
  cases rooted with
  | false => exact hpath
  | true =>
    have hcolons := Reads.colons (first.toList ++
      (names.flatMap fun name => ':' :: ':' :: name.toList) ++ rest)
    rw [List.append_assoc, hfirst.atPunct_append, ← List.append_assoc] at hcolons
    exact hcolons.append hpath

/-- The readers of types read what the form of a type leaves. -/
theorem leaves_typeAt {plus : Bool} {own ts tail : List Token} {type : Ty} {n : Nat}
    (hn : nesting own ≤ n)
    (hform : ∀ m, nesting own ≤ m + 1 → Leaves (typeForm (rulesUpTo m) plus) ts tail type) :
    Leaves (typeAt plus n) ts tail type := by
  have hpos : n ≠ 0 := by
    rintro rfl
    exact absurd hn (Nat.not_succ_le_zero _)
  obtain ⟨m, rfl⟩ := Nat.exists_eq_succ_of_ne_zero hpos
  exact Leaves.readType (hform m hn)

/-! ## Types -/

/-- Whether a text spells a type, and begins neither a comment nor with a byte order mark. -/
structure SpellsType (text : String) (type : Ty) : Prop where
  spells : ∀ plus, Spells BeginsType (typeAt plus) text type
  start : ∀ c, text.toList.head? = some c → c ≠ '/' ∧ c.toNat ≠ 0xFEFF

/-- Whether a text spells a type that ends wherever nothing goes on with it. -/
def SpellsPath (text : String) (type : Ty) : Prop :=
  ∀ plus rest, Breaks rest → ∃ t ts, Reads text.toList rest (t :: ts) ∧ BeginsType t ∧
    ∀ n tail, nesting (t :: ts) ≤ n → Ends tail →
      Leaves (typeAt plus n) (t :: (ts ++ tail)) tail type

/-- Such a type ends where any other one does, with and without further bounds behind it. -/
theorem SpellsPath.spells {text : String} {type : Ty} (h : SpellsPath text type) (plus : Bool) :
    Spells BeginsType (typeAt plus) text type := by
  intro rest hrest
  obtain ⟨t, ts, hread, ht, hleaves⟩ := h plus rest hrest
  exact ⟨t, ts, hread, ht, fun n tail hn htail => hleaves n tail hn htail.ends⟩

/-- A group with what is spelled in it begins with its bracket. -/
theorem start_of_eq_cons {text : String} {c : Char} {cs : List Char} (htext : text.toList = c :: cs)
    (hc : c ≠ '/' ∧ c.toNat ≠ 0xFEFF) :
    ∀ d, text.toList.head? = some d → d ≠ '/' ∧ d.toNat ≠ 0xFEFF := by
  intro d hd
  rw [htext] at hd
  rwa [← Option.some.inj hd]

/-- A path begins neither a comment nor with a byte order mark. -/
theorem start_of_names {rooted : Bool} {first : String} (hfirst : IsWord first) {more : List Char}
    {args text : List Char}
    (htext : text = (if rooted then [':', ':'] else []) ++ (first.toList ++ more) ++ args) :
    ∀ c, text.head? = some c → c ≠ '/' ∧ c.toNat ≠ 0xFEFF := by
  rintro c hc
  rw [htext] at hc
  cases rooted with
  | true =>
    obtain rfl := Option.some.inj hc
    decide
  | false =>
    obtain ⟨d, ds, hhead, hd⟩ := hfirst.exists_isIdentStart
    rw [hhead] at hc
    obtain rfl := Option.some.inj hc
    have hcodes : d.toNat ∉ [0x2F, 0xFEFF] := Lexer.toNat_not_mem hd (by decide +kernel)
    simp only [List.mem_cons, List.not_mem_nil, or_false, not_or] at hcodes
    exact ⟨fun heq => hcodes.1 (congrArg Char.toNat heq), hcodes.2⟩

/-- Names and a spelling of arguments spell a path, which ends where nothing goes on with it. -/
theorem spellsPath_names {rooted : Bool} {first : String} {names : List String} {text : String}
    {args : PathArgs} (hfirst : IsWord first) (hbegins : BeginsPath first)
    (hnames : ∀ name ∈ names, IsWord name ∧ name ∉ keywords)
    (hcrate : first = "crate" → names ≠ []) {whole : String}
    (hwhole : whole.toList = (if rooted then [':', ':'] else []) ++
      (first.toList ++ names.flatMap fun name => ':' :: ':' :: name.toList) ++ text.toList)
    (hargs : SpellsArgs text args) :
    SpellsPath whole (.path rooted (Segment.ofNames args (first :: names))) := by
  intro plus rest hrest
  obtain ⟨hbreaks, ts, hread, hlast⟩ := hargs rest hrest
  have hpath := (reads_names rooted hfirst (fun name h => (hnames name h).1)
    hbreaks.endsWord).append hread
  rw [← hwhole] at hpath
  have hleaves (n : Nat) (tail : List Token)
      (hn : nesting (Leaves.rootTokens rooted ++ .ident first :: memberTokens names ++ ts) ≤ n)
      (htail : Ends tail) :
      Leaves (typeAt plus n)
        (Leaves.rootTokens rooted ++ .ident first :: memberTokens names ++ ts ++ tail) tail
        (.path rooted (Segment.ofNames args (first :: names))) := by
    refine leaves_typeAt hn fun m hm => ?_
    have hsize : nesting ts ≤ m := by
      rw [List.append_assoc] at hm
      have hnames := (nesting_le_of_append _ _ hm).2
      exact (nesting_le_of_append _ _ (nesting_le_of_cons _ _ hnames)).2
    have hform := Leaves.typeForm_names plus rooted hbegins
      (fun name h => (hnames name h).2) hcrate (hlast m tail hsize htail) htail
    simpa only [List.append_assoc, List.cons_append] using hform
  cases rooted with
  | true => exact ⟨_, _, hpath, .colon true, hleaves⟩
  | false => exact ⟨_, _, hpath, .word hbegins, hleaves⟩

/-- Names and a spelling of arguments spell a type. The names behind the first one are identifiers,
and `crate` does not stand alone. -/
theorem spellsType_names {rooted : Bool} {first : String} {names : List String} {text : String}
    {args : PathArgs} (hfirst : IsWord first) (hbegins : BeginsPath first)
    (hnames : ∀ name ∈ names, IsWord name ∧ name ∉ keywords)
    (hcrate : first = "crate" → names ≠ []) {whole : String}
    (hwhole : whole.toList = (if rooted then [':', ':'] else []) ++
      (first.toList ++ names.flatMap fun name => ':' :: ':' :: name.toList) ++ text.toList)
    (hargs : SpellsArgs text args) :
    SpellsType whole (.path rooted (Segment.ofNames args (first :: names))) := by
  have hpath := spellsPath_names hfirst hbegins hnames hcrate hwhole hargs
  exact ⟨fun plus => hpath.spells plus, start_of_names hfirst hwhole⟩

/-- A spelling of a type is read inside brackets, with more text behind it in the same group. This
text begins no comment. -/
theorem SpellsType.reads_group {text : String} {type : Ty} (htype : SpellsType text type)
    (d : Delimiter) (more : List Char) {ts ts' : List Token}
    (hread : Reads text.toList (more ++ Lexer.closeOf d :: rest) ts)
    (hmore : Reads more (Lexer.closeOf d :: rest) ts')
    (hstart : ∀ c, more.head? = some c → c ≠ '/') :
    Reads (Lexer.openOf d :: (text.toList ++ more ++ [Lexer.closeOf d])) rest
      [.group d (ts ++ ts')] := by
  refine Reads.group (hread.append hmore) fun hhead => ?_
  rw [List.append_assoc, List.head?_append, Option.or_eq_some_iff] at hhead
  rcases hhead with hhead | ⟨-, hhead⟩
  · exact (htype.start '/' hhead).1 rfl
  · rw [List.head?_append, Option.or_eq_some_iff] at hhead
    rcases hhead with hhead | ⟨-, hhead⟩
    · exact hstart '/' hhead rfl
    · cases d <;> exact absurd (Option.some.inj hhead) (by decide)

/-- A type in brackets spells a slice, as no semicolon stands behind it. -/
theorem spellsType_slice {text : String} {elem : Ty} (helem : SpellsType text elem) :
    SpellsType ("[" ++ text ++ "]") (.slice elem) := by
  have htext : ("[" ++ text ++ "]").toList = '[' :: (text.toList ++ [] ++ [']']) := by simp
  refine ⟨fun plus rest hrest => ?_, start_of_eq_cons htext (by decide)⟩
  obtain ⟨t, ts, hread, ht, hleaves⟩ := helem.spells true (']' :: rest) (.cons (by decide) rest)
  have hgroup := helem.reads_group .bracket [] hread (Reads.nil _) (fun c hc => nomatch hc)
  rw [htext]
  refine ⟨_, [], hgroup, .bracket _, fun n tail hn htail => leaves_typeAt hn fun m hm => ?_⟩
  have hsize := (nesting_le_of_append (t :: ts) [] (nesting_le_of_group hm)).1
  exact Leaves.typeForm_slice (hleaves m [] hsize .nil)

/-- Whether a text spells the length of an array that prints as some tokens. -/
def SpellsLength (text : String) (own : List Token) : Prop :=
  ∀ rest, Breaks rest → ∃ ts, Reads text.toList rest ts ∧
    ∀ n, nesting ts ≤ n → ∃ form, Leaves (captured (rulesUpTo n).expr) ts [] (form, own)

/-- A type and a length in brackets spell an array. -/
theorem spellsType_array {text length : String} {elem : Ty} {own : List Token}
    (helem : SpellsType text elem) (hlength : SpellsLength length own) :
    SpellsType ("[" ++ text ++ "; " ++ length ++ "]") (.array elem own) := by
  have htext : ("[" ++ text ++ "; " ++ length ++ "]").toList =
      '[' :: (text.toList ++ ([';'] ++ ([' '] ++ length.toList)) ++ [']']) := by simp
  refine ⟨fun plus rest hrest => ?_, start_of_eq_cons htext (by decide)⟩
  obtain ⟨own', hown, hform⟩ := hlength (']' :: rest) (.cons (by decide) rest)
  have hmore := (Reads.separator (by decide : ';' ∈ Lexer.separators) _).append
    ((Reads.space _).append hown)
  obtain ⟨t, ts, hread, ht, hleaves⟩ :=
    helem.spells true ([';'] ++ ([' '] ++ length.toList) ++ ']' :: rest) (.cons (by decide) _)
  have hgroup := helem.reads_group .bracket _ hread hmore
    (fun c hc => by obtain rfl := Option.some.inj hc; decide)
  rw [htext]
  refine ⟨_, [], hgroup, .bracket _, fun n tail hn htail => leaves_typeAt hn fun m hm => ?_⟩
  obtain ⟨hfront, hback⟩ := nesting_le_of_append (t :: ts) _ (nesting_le_of_group hm)
  obtain ⟨form, hform⟩ := hform m (nesting_le_of_append [_] own' hback).2
  exact Leaves.typeForm_array (hleaves m _ hfront (.cons (by decide) _ _)) hform

/-- What stands in the parentheses of a tuple after its first element. -/
def tupleRest (others : List String) : List Char :=
  ',' :: if others.isEmpty then [] else ' ' :: (", ".intercalate others).toList

/-- The characters of a tuple: its types with commas between them, in parentheses. -/
theorem toList_renderTuple (text : String) (others : List String) :
    (SymbolTable.renderTuple (text :: others)).toList =
      '(' :: (text.toList ++ tupleRest others ++ [')']) := by
  cases others with
  | nil => simp [SymbolTable.renderTuple, tupleRest]
  | cons next others =>
    simp [SymbolTable.renderTuple, tupleRest, String.intercalate_cons_cons]

/-- Nothing in parentheses spells the empty tuple. -/
theorem spellsType_unit : SpellsType (SymbolTable.renderTuple []) (.tuple [] false) := by
  have htext : (SymbolTable.renderTuple []).toList = '(' :: ([] ++ [')']) := by
    simp [SymbolTable.renderTuple]
  refine ⟨fun plus rest hrest => ?_, start_of_eq_cons htext (by decide)⟩
  have hgroup : Reads ('(' :: ([] ++ [')'])) rest [.group .paren []] :=
    Reads.group (d := .paren) (Reads.nil _) (by decide)
  rw [htext]
  refine ⟨_, [], hgroup, .paren _, fun n tail hn htail => leaves_typeAt hn fun m hm => ?_⟩
  exact Leaves.typeForm_paren (Leaves.parenType_whole Leaves.parenForm_nil)

/-- Types with commas between them spell a tuple, in which a single one has a comma behind it. -/
theorem spellsType_tuple {text : String} {first : Ty} {texts : List String} {others : List Ty}
    (hfirst : SpellsType text first) (hothers : List.Forall₂ SpellsType texts others) :
    SpellsType (SymbolTable.renderTuple (text :: texts))
      (.tuple (first :: others) others.isEmpty) := by
  have htext := toList_renderTuple text texts
  refine ⟨fun plus rest hrest => ?_, start_of_eq_cons htext (by decide)⟩
  have hstop : ∀ t ts, BeginsType t → List.isEmpty (t :: ts) = false := fun _ _ _ => rfl
  obtain ⟨more, hmore, hlength, -, hseparates⟩ := Spells.separates hstop (fun _ _ => rfl)
    (hothers.imp fun _ _ h => h.spells true)
    (Lexer.Breaks.cons (by decide : ')' ∈ Lexer.breakChars) rest)
  obtain ⟨joint, hrestRead⟩ : ∃ joint, Reads (tupleRest texts) (')' :: rest)
      (.punct ',' joint :: more) := by
    have hcomma := Reads.separator (by decide : ',' ∈ Lexer.separators)
      ((tupleRest texts).tail ++ ')' :: rest)
    refine ⟨_, hcomma.append ?_⟩
    cases texts with
    | nil => simpa [tupleRest] using hmore
    | cons next texts => exact (Reads.space _).append hmore
  obtain ⟨t, ts, hread, ht, hleaves⟩ :=
    hfirst.spells true (tupleRest texts ++ ')' :: rest) (.cons (by decide) _)
  have hgroup := hfirst.reads_group .paren (tupleRest texts) hread hrestRead
    (fun c hc => by obtain rfl := Option.some.inj hc; decide)
  rw [htext]
  refine ⟨_, [], hgroup, .paren _, fun n tail hn htail => leaves_typeAt hn fun m hm => ?_⟩
  obtain ⟨hfront, hback⟩ := nesting_le_of_append (t :: ts) _ (nesting_le_of_group hm)
  have hseparated := hseparates m [] (nesting_le_of_append [_] more hback).2 .nil rfl
  rw [List.append_nil] at hseparated
  have hform := Leaves.parenForm_cons ht
    (hleaves m (.punct ',' joint :: more) hfront (.cons (by decide) joint more))
    (Leaves.separated hseparated hlength)
  rw [Bool.or_false] at hform
  exact Leaves.typeForm_paren (Leaves.parenType_whole hform)

/-- A type after `&'static` spells a reference, with and without a modifier. -/
theorem spellsType_reference {text : String} {target : Ty} (htarget : SpellsType text target)
    (mutable : Bool) :
    SpellsType ("&" ++ "'static " ++ (if mutable then "mut " else "") ++ text)
      (.reference (some "static") mutable target) := by
  have htext : ("&" ++ "'static " ++ (if mutable then "mut " else "") ++ text).toList =
      '&' :: ("'static".toList ++ ([' '] ++
        ((if mutable then "mut".toList ++ [' '] else []) ++ text.toList))) := by
    cases mutable <;> simp
  refine ⟨fun plus rest hrest => ?_, start_of_eq_cons htext (by decide)⟩
  obtain ⟨t, ts, hread, ht, hleaves⟩ := htarget.spells false rest hrest
  have hmut := (Reads.mutWord mutable (text.toList ++ rest)).append hread
  have hall := (Reads.separator (by decide : '&' ∈ Lexer.separators) _).append
    ((Reads.static (.cons (by decide) _)).append ((Reads.space _).append hmut))
  rw [htext]
  refine ⟨_, _, hall, .ampersand _, fun n tail hn htail => leaves_typeAt hn fun m hm => ?_⟩
  have hsize : nesting (t :: ts) ≤ m := by
    have hlifetime := nesting_le_of_cons _ _ hm
    have hspace := (nesting_le_of_append (Token.lifetime "static") _ hlifetime).2
    exact (nesting_le_of_append _ (t :: ts) hspace).2
  have hword : Leaves (word? "mut") ((if mutable then [.ident "mut"] else []) ++ t :: ts ++ tail)
      (t :: (ts ++ tail)) mutable := by
    cases mutable with
    | true => exact Leaves.word?_some "mut" _
    | false => exact Leaves.word?_none (ht.atWord_eq_false (by decide) (by decide) _)
  exact Leaves.typeForm_reference hword (hleaves m tail hsize htail)

/-- A type after `&mut` spells a reference without a lifetime. -/
theorem spellsType_borrow {text : String} {target : Ty} (htarget : SpellsType text target) :
    SpellsType ("&mut " ++ text) (.reference none true target) := by
  have htext : ("&mut " ++ text).toList = '&' :: ("mut".toList ++ ([' '] ++ text.toList)) := by simp
  refine ⟨fun plus rest hrest => ?_, start_of_eq_cons htext (by decide)⟩
  obtain ⟨t, ts, hread, ht, hleaves⟩ := htarget.spells false rest hrest
  have hmut := Reads.word (by decide : IsWord "mut")
    (.cons (by decide) (text.toList ++ rest) : EndsWord (' ' :: (text.toList ++ rest)))
  have hall := (Reads.separator (by decide : '&' ∈ Lexer.separators) _).append
    (hmut.append ((Reads.space _).append hread))
  rw [htext]
  refine ⟨_, _, hall, .ampersand _, fun n tail hn htail => leaves_typeAt hn fun m hm => ?_⟩
  have hsize : nesting (t :: ts) ≤ m :=
    (nesting_le_of_append [.ident "mut"] (t :: ts) (nesting_le_of_cons _ _ hm)).2
  exact Leaves.typeForm_borrow rfl (Leaves.word?_some "mut" _) (hleaves m tail hsize htail)

/-- A spelled type is read from its text, whose end is the end of the type. -/
theorem SpellsType.ofText? {text : String} {type : Ty} (htype : SpellsType text type) :
    Ty.ofText? text = some type := by
  obtain ⟨t, ts, hread, -, hleaves⟩ := htype.spells true [] (fun c hc => nomatch hc)
  have hmark : Lexer.withoutMark text.toList = text.toList := by
    cases hchars : text.toList with
    | nil => rfl
    | cons c cs =>
      have hc := (htype.start c (by rw [hchars]; rfl)).2
      rw [Lexer.withoutMark, if_neg hc]
  have htokens := hread.tokens? hmark
  have hall := hleaves (nesting (t :: ts)) [] (Nat.le_refl _) .nil
  rw [List.append_nil] at hall
  obtain ⟨written, found, hall⟩ := hall [] []
  have hfront : readFront? (fun rules => rules.type) (t :: ts) = some (type, []) := by
    show (typeAt true (nesting (t :: ts)) ⟨t :: ts, [], []⟩).map _ = _
    rw [hall]
    rfl
  rw [Ty.ofText?, htokens]
  show readAll? (fun rules => rules.type) (t :: ts) = some type
  rw [readAll?, hfront]

/-! ## Generic arguments -/

/-- A type is spelled as a generic argument, as no binding stands behind it. -/
theorem SpellsType.spells_arg {text : String} {type : Ty} (htype : SpellsType text type) :
    Spells BeginsArg argAt text (.type type) := by
  intro rest hrest
  obtain ⟨t, ts, hread, ht, hleaves⟩ := htype.spells true rest hrest
  refine ⟨t, ts, hread, ht.beginsArg, fun n tail hn htail => ?_⟩
  exact Leaves.genericArg (Leaves.genericArgOf_type (ht.atLifetime_eq_false _)
    (ht.atValue_eq_false _) (hleaves n tail hn htail) htail)

/-- The object type of a trait is spelled as a generic argument. -/
theorem spells_dyn {rooted : Bool} {first : String} {names : List String} (hfirst : IsWord first)
    (hbegins : BeginsPath first) (hnames : ∀ name ∈ names, IsWord name ∧ name ∉ keywords)
    (hcrate : first = "crate" → names ≠ []) {path : String}
    (hpath : path.toList = (if rooted then [':', ':'] else []) ++
      (first.toList ++ names.flatMap fun name => ':' :: ':' :: name.toList)) :
    Spells BeginsArg argAt ("dyn " ++ path) (.type (.object
      (.ident "dyn" :: (Ty.path rooted (Segment.ofNames .none (first :: names))).tokens))) := by
  intro rest hrest
  have htext : ("dyn " ++ path).toList = "dyn".toList ++ ([' '] ++ path.toList) := by simp
  have hread := reads_names rooted hfirst (fun name h => (hnames name h).1) hrest.endsWord
  rw [← hpath] at hread
  have hall := (Reads.word (by decide : IsWord "dyn") (.cons (by decide) _)).append
    ((Reads.space _).append hread)
  rw [htext]
  refine ⟨_, _, hall, nofun, fun n tail hn htail => ?_⟩
  refine Leaves.genericArg (Leaves.genericArgOf_type rfl rfl ?_ htail)
  refine leaves_typeAt hn fun m hm => ?_
  have hangle : atOperator "<" tail = false := htail.atOperator_eq_false rfl (by decide)
  have hcolons : atOperator "::" tail = false := htail.atOperator_eq_false rfl (by decide)
  have hlast : ∀ name ∉ keywords, Leaves (segment (argAt m) false) (.ident name :: tail) tail
      (.mk name .none) := by
    intro name hname
    exact Leaves.segment_plain (.inr hname) hangle (by rw [hcolons, Bool.false_and])
  have hsegments : Leaves (segments (argAt m) false)
      (Leaves.rootTokens rooted ++ .ident first :: (memberTokens names ++ tail)) tail
      (rooted, Segment.ofNames .none (first :: names)) :=
    Leaves.segments hbegins (fun name h => (hnames name h).2) hcrate hlast hcolons
  have hcall : atCallArgs tail = false := by
    rw [atCallArgs, hcolons, Bool.false_and, Bool.or_false]
    cases tail with
    | nil => rfl
    | cons t tail =>
      obtain ⟨c, -, joint, rfl⟩ := htail t rfl
      rfl
  have hform : Leaves (typeForm (rulesUpTo m) true)
      (.ident "dyn" :: (Leaves.rootTokens rooted ++ .ident first :: (memberTokens names ++ tail)))
      tail (.object (.ident "dyn" ::
        (Ty.path rooted (Segment.ofNames .none (first :: names))).tokens)) :=
    Leaves.typeForm_dyn (Leaves.noModifier_path rooted hbegins _) hsegments hcall
      (htail.atOperator_eq_false rfl (by decide))
  simpa using hform

/-- The lifetime `'static` is spelled as a generic argument. -/
theorem spells_static : Spells BeginsArg argAt "'static" (.lifetime "static") := by
  intro rest hrest
  refine ⟨_, _, Reads.static hrest, ?_, fun n tail hn htail => ?_⟩
  · rintro c hc joint heq
    obtain ⟨rfl, -⟩ := Token.punct.inj heq
    exact absurd hc (by decide)
  · exact Leaves.genericArg (Leaves.genericArgOf_lifetime htail)

end ServiceDispatch.Grammar
