import ServiceDispatch.Grammar.Source
import ServiceDispatch.Proofs.Printing.Exprs
import ServiceDispatch.Proofs.Printing.Signatures

/-!
# Items that are kept

An item is printed as it is written if its tokens are settled, whatever is nested in it. This
holds of all forms at every depth.
-/

namespace ServiceDispatch.Grammar

open Token (bareAll)

variable {α : Type} {rules : Rules} {c c' : Cursor} {ts own : List Token}

/-! ## Parts of items -/

/-- The restriction of a visibility is kept: a path behind a word, or a word alone. -/
theorem keeps_restriction : Keeps .code restriction := by
  refine Keeps.group ((Keeps.word? "in").bind fun _ => .ite keeps_plainPath.returning ?word) .paren
  case word => exact Keeps.ahead.bind fun _ => (Keeps.require _).before Keeps.anyWord.returning

/-- A visibility is kept. Parentheses behind it are read only if they hold a restriction. -/
theorem keeps_visibility : Keeps .code visibility := by
  refine (Keeps.word? "pub").bind fun _ => .ite (.pure _) (Keeps.ahead.bind fun _ => ?_)
  split
  · refine .ite keeps_restriction.returning ?_
    refine keeps_restriction.attempt.bind fun path => ?_
    cases path with
    | some path => exact .pure _
    | none => exact .pure _
  · exact .pure _

/-- An invocation as an item is kept with its name and its semicolon. -/
theorem keeps_invocationItem (named : Bool) : Keeps .code (invocationItem named) := by
  have hbody : Keeps .code (do
      let r ← anyGroup
      if r.1 != .brace then operator ";") :=
    Keeps.anyGroup.bind fun _ => .ite (.operator rfl) (.pure ())
  refine keeps_plainPath.discard.before ?_
  refine (Keeps.operator rfl).before (.ite ?name hbody)
  case name =>
    exact (Keeps.peek _).bind fun _ => .ite (Keeps.anyWord.discard.before hbody) hbody

/-- A name or an underscore is kept, as it is a word. -/
theorem keeps_nameOrUnderscore : Keeps .code nameOrUnderscore :=
  Keeps.ahead.bind fun _ => (Keeps.require _).before .anyWord

/-- A constant is kept: its name, its parameters and type, its value and its clause. -/
theorem keeps_constant (h : rules.Keep) : Keeps .code (constant rules) := by
  have hend (hasValue : Bool) (generics : GenericsForm) : Keeps .code (do
      let isRestricted ← whereClause rules
      operator ";"
      return hasValue && !generics.bracketed && !isRestricted) :=
    (keeps_whereClause h).bind fun _ => (Keeps.operator rfl).returning
  refine (Keeps.word "const").before ?_
  refine keeps_nameOrUnderscore.discard.before ?_
  refine (keeps_genericParams h).bind fun _ => ?_
  refine (Keeps.operator rfl).before ?_
  refine h.plusType.discard.before ?_
  refine (Keeps.operator? rfl).bind fun _ => ?_
  exact .ite (h.expr.discard.before (hend _ _)) (hend _ _)

/-- A type alias is kept: its name, its parameters and bounds, its definition, and its clause in
either place. -/
theorem keeps_typeAlias (h : rules.Keep) (before after : Bool) :
    Keeps .code (typeAlias rules before after) := by
  have hbounds : Keeps .code (colonBounds
      (fun ts => atWord "where" ts || atOperator "=" ts || atOperator ";" ts)
      (paramBound rules)) := by
    refine (keeps_colonBounds (keeps_paramBound h) fun ts hstop => ?_).of_type .code
    simp only [Bool.or_eq_true, or_assoc] at hstop
    rcases hstop with h | h | h <;> simp [endsBounds, h]
  have hend (form : AliasForm) (early : Bool) : Keeps .code (do
      if after && !early then discard (whereClause rules)
      operator ";"
      return form) := by
    have hsemicolon : Keeps .code (do operator ";"; return form) := (Keeps.operator rfl).returning
    exact .ite ((keeps_whereClause h).discard.before hsemicolon) hsemicolon
  refine (Keeps.word "type").before ?_
  refine Keeps.name.bind fun _ => ?_
  refine (keeps_genericParams h).discard.before ?_
  refine hbounds.bind fun _ => ?_
  refine .ite ((keeps_whereClause h).bind fun _ => ?_) ((Keeps.pure _).bind fun _ => ?_)
  all_goals
    refine (Keeps.operator? rfl).bind fun _ => ?_
    exact .ite (h.plusType.discard.before (hend _ _)) (hend _ _)

/-! ## Fields -/

/-- A field with a name is kept if the fields nested in it are. A nested list is printed the way it
is written. -/
theorem keeps_namedField (h : rules.Keep) {nested : Reader Unit} (hnested : Keeps .code nested) :
    Keeps .code (namedField rules nested) := by
  refine (keeps_outerAttributes h).discard.before ?_
  refine keeps_visibility.discard.before ?_
  refine (Keeps.peek _).bind fun _ => ?_
  refine keeps_nameOrUnderscore.discard.before ?_
  refine (Keeps.operator rfl).before ?_
  refine Keeps.ahead.bind fun _ => .ite (Keeps.verbatim ?nested) h.plusType.discard
  case nested => exact Keeps.anyWord.discard.before hnested

/-- Fields in braces are kept however deeply they are nested, by induction on the depth. -/
theorem keeps_namedFields (h : rules.Keep) : Keeps .code (namedFields rules) := by
  have hupTo (n : Nat) : Keeps .code (namedFieldsUpTo rules n) := by
    induction n with
    | zero => exact .failure
    | succ n ih => exact ((Keeps.commaList (keeps_namedField h ih)).group .brace).discard
  exact Keeps.ahead.bind fun _ => hupTo _

/-- Fields in parentheses are kept, each with its attributes and its visibility. -/
theorem keeps_tupleFields (h : rules.Keep) : Keeps .code (tupleFields rules) := by
  have hfield : Keeps .code (do
      discard (outerAttributes rules)
      discard visibility
      discard rules.type) := by
    refine (keeps_outerAttributes h).discard.before ?_
    exact keeps_visibility.discard.before h.plusType.discard
  exact ((Keeps.commaList hfield).group .paren).discard

/-! ## Variants -/

/-- Whether a visibility may stand in the body of an enum. -/
def anyVisibility (ts : List Token) : Bool := ts.any fun t => atWord "pub" [t]

/-- Whether tokens are settled and no visibility stands among them. -/
def SettledPrivate (ts : List Token) : Prop := isSettled ts ∧ anyVisibility ts = false

/-- The tokens that are left are tokens of the whole, so that no visibility stands among them. -/
theorem isLasting_settledPrivate : IsLasting SettledPrivate where
  isSettled h := h.1
  left h := by
    have hall := h.2
    rw [anyVisibility, List.any_append, Bool.or_eq_false_iff] at hall
    exact ⟨isSettled_of_append h.1, hall.2⟩

/-- A visibility that is not printed is none, where none stands among the tokens. -/
theorem keepsIf_silentVisibility : KeepsIf SettledPrivate .code (silently visibility) := by
  intro c _ c' hsilent hc
  obtain ⟨inner, hread, rfl⟩ := silently_eq_some hsilent
  obtain ⟨there, mid, hword, hread⟩ := bind_eq_some.mp hread
  rcases optional_eq_some hword with ⟨rfl, hpub⟩ | ⟨rfl, -, rfl⟩
  · have hnone := hc.2
    rw [(word_eq_some hpub).1] at hnone
    exact nomatch hnone
  · obtain ⟨-, rfl⟩ := pure_eq_some.mp hread
    exact ⟨[], .refl .code c⟩

/-- A variant is kept if no visibility stands in front of it: its name, its fields and its value. -/
theorem keepsIf_variant (h : rules.Keep) : KeepsIf SettledPrivate .code (variant rules) := by
  have hq := isLasting_settledPrivate
  have hvalue : Keeps .code (do if ← operator? "=" then discard rules.expr) :=
    (Keeps.operator? rfl).bind fun _ => .ite h.expr.discard (.pure ())
  have hrest : Keeps .code (do
      discard name
      let ts ← ahead
      if atGroup .brace ts then namedFields rules
      else if atGroup .paren ts then tupleFields rules
      if ← operator? "=" then discard rules.expr) := by
    refine Keeps.name.discard.before (Keeps.ahead.bind fun _ => ?_)
    refine .ite ((keeps_namedFields h).before hvalue) ?_
    exact .ite ((keeps_tupleFields h).before hvalue) hvalue
  refine .bind hq (.of_keeps hq (keeps_outerAttributes h).discard) fun _ => ?_
  exact .bind hq (.discard keepsIf_silentVisibility) fun _ => .of_keeps hq hrest

/-! ## Types -/

/-- The body of a struct is kept: its fields in braces or parentheses with its clause, or none. -/
theorem keeps_structBody (h : rules.Keep) : Keeps .code (structBody rules) := by
  have hclause := keeps_whereClause h
  refine hclause.bind fun _ => Keeps.ahead.bind fun _ => ?_
  refine .ite ?tuple (.ite (keeps_namedFields h) (.operator rfl))
  case tuple =>
    exact (keeps_tupleFields h).before (hclause.discard.before (.operator rfl))

/-- Asking whether a name can be a segment reads nothing. -/
theorem keeps_asSegment (text : String) : Keeps .code (asSegment text) := by
  unfold asSegment
  split
  · exact .pure _
  · exact .failure

/-- A declaration of a type is kept if its body is. -/
theorem keepsIf_typeDecl (h : rules.Keep) {q : List Token → Prop} (hq : IsLasting q)
    {body : Reader Unit} (hbody : KeepsIf q .code body) :
    KeepsIf q .code (typeDecl rules body) := by
  refine .bind hq (.of_keeps hq Keeps.anyWord.discard) fun _ => ?_
  refine .bind hq (.of_keeps hq Keeps.name) fun text => ?_
  refine .bind hq (.of_keeps hq (keeps_asSegment text)) fun _ => ?_
  refine .bind hq (.of_keeps hq (keeps_genericParams h)) fun _ => ?_
  exact .bind hq hbody fun _ => .pure _

/-- An enum is kept: in settled tokens no variant has a visibility. -/
theorem passes_enum (h : rules.Keep)
    {r : { name : String // IsSegment name } × Bool} (hread : (typeDecl rules do
      discard (whereClause rules)
      discard (group .brace (commaList (variant rules)))) c = some (r, c'))
    (hc : isSettled c.rest) (henum : atWord "enum" c.rest) : ∃ out, Passes .code out c c' := by
  have hq := isLasting_settledWithout .brace anyVisibility
  have hvariants : KeepsIf SettledPrivate .code (commaList (variant rules)) :=
    .separated isLasting_settledPrivate rfl (keepsIf_variant h) _
  have hgroup : KeepsIf (SettledWithout .brace anyVisibility) .code
      (group .brace (commaList (variant rules))) :=
    hvariants.group (fun hts => ⟨isSettled_body hts.1, hts.2 _ List.mem_cons_self⟩) _
  have hprivate : SettledWithout .brace anyVisibility c.rest := by
    have hvisibility := (unchanged_of_isSettled hc).visibility
    rw [losesVisibility, henum, Bool.true_and, List.any_eq_false] at hvisibility
    exact ⟨hc, fun body hbody => Bool.not_eq_true _ ▸ hvisibility _ hbody⟩
  have hbody := KeepsIf.bind hq (.of_keeps hq (keeps_whereClause h).discard) fun _ => hgroup.discard
  exact keepsIf_typeDecl h hq hbody _ _ _ hread hprivate

/-! ## Imports -/

/-- An import tree is kept, by induction on the bound of the recursion, with and without a root in
front of the members of a group. -/
theorem keeps_useTree (n : Nat) (rooted : Bool) : Keeps .code (useTree n rooted) := by
  induction n generalizing rooted with
  | zero => exact .failure
  | succ n ih =>
    have hmember (isRooted : Bool) : Keeps .code (do
        let tree ← useTree n (rooted && !isRooted)
        return if isRooted then none else tree) := (ih _).returning
    have hmembers : Keeps .code (commaList do
        let isRooted ← if rooted then operator? "::" else pure false
        let tree ← useTree n (rooted && !isRooted)
        return if isRooted then none else tree) :=
      .commaList (.ite ((Keeps.operator? rfl).bind hmember) ((Keeps.pure _).bind hmember))
    refine Keeps.ahead.bind fun _ => .ite (Keeps.operator rfl).returning ?_
    refine .ite (hmembers.group .brace).returning ?name
    case name =>
      refine (Keeps.require _).before ?_
      refine Keeps.anyWord.bind fun _ => ?_
      refine (Keeps.operator? rfl).bind fun _ => .ite (ih false).returning ?_
      exact (Keeps.word? "as").bind fun _ => .ite keeps_nameOrUnderscore.returning (.pure _)

/-- An import is kept with its tree. -/
theorem keeps_useItem {f : Bool → Option UseTree → α} : Keeps .code (do
    word "use"
    let rooted ← operator? "::"
    let tree ← useTree (Token.sizeAll (← ahead) + 1) (!rooted)
    operator ";"
    return f rooted tree) := by
  refine (Keeps.word "use").before ?_
  refine (Keeps.operator? rfl).bind fun _ => Keeps.ahead.bind fun _ => ?_
  exact (keeps_useTree _ _).bind fun _ => (Keeps.operator rfl).returning

/-! ## Members of blocks -/

/-- The body of a function is kept with the attributes at its beginning. -/
theorem keeps_functionBody (h : rules.Keep) : Keeps .code (functionBody rules) :=
  keeps_attributedBlock h

/-- A function of a block is kept, with and without a body. -/
theorem keeps_method (h : rules.Keep) : Keeps .code (method rules) := by
  refine (keeps_outerAttributes h).bind fun _ => ?_
  refine keeps_visibility.bind fun _ => ?_
  refine (Keeps.word? "default").discard.before ?_
  refine (keeps_signature h false).bind fun _ => ?_
  exact (Keeps.operator? rfl).bind fun _ => .ite (.pure _) (keeps_functionBody h).returning

/-- A member of a block is kept. A function is read anew from the start of the member, so that
tokens are kept since that cursor. -/
theorem keeps_implMember (h : rules.Keep) : Keeps .code (implMember rules) := by
  have hinvocation (held : Bool) : Keeps .code (do
      require held
      invocationItem false
      return none : Reader (Option MethodDecl)) :=
    (Keeps.require held).before (keeps_invocationItem false).returning
  refine .restarting fun start hstart => ?_
  refine .bind (.of_keeps (keeps_outerAttributes h).discard hstart) fun _ => ?_
  refine .bind (.of_keeps keeps_visibility hstart) fun scope => ?_
  refine .bind (.of_keeps (Keeps.peek _) hstart) fun isDefault => ?_
  have hrest : KeepsSince .code start (do
      let ts ← ahead
      if atSignature false ts then
        set start
        method rules
      else if atWord "const" ts then
        discard (constant rules)
        return none
      else if atWord "type" ts then
        discard (typeAlias rules false true)
        return none
      else
        require (scope == .inherited && !isDefault && atPlainPath ts)
        invocationItem false
        return none) := by
    refine .bind (.of_keeps Keeps.ahead hstart) fun _ => .ite (.restart (keeps_method h) hstart) ?_
    refine .of_keeps (.ite (keeps_constant h).discard.returning ?_) hstart
    exact .ite (keeps_typeAlias h false true).discard.returning (hinvocation _)
  exact .ite (.bind (.of_keeps (Keeps.word _) hstart) fun _ => hrest) hrest

/-- A member of a trait is kept, be it a function, a constant, a type or an invocation. -/
theorem keeps_traitMember (h : rules.Keep) : Keeps .code (traitMember rules) := by
  refine (keeps_outerAttributes h).discard.before ?_
  refine keeps_visibility.bind fun _ => ?_
  refine (Keeps.word? "default").bind fun _ => Keeps.ahead.bind fun _ => ?_
  refine .ite ?function (.ite (keeps_constant h).discard (.ite ?type ?invocation))
  case function =>
    refine (keeps_signature h false).discard.before ?_
    exact (Keeps.operator? rfl).bind fun _ => .ite (keeps_functionBody h).discard (.pure ())
  case type => exact (keeps_typeAlias h false true).discard
  case invocation => exact (Keeps.require _).before (keeps_invocationItem false)

/-- A foreign member is kept, be it a function, a variable, a type or an invocation. -/
theorem keeps_foreignMember (h : rules.Keep) : Keeps .code (foreignMember rules) := by
  have hend (result : Option Unit) : Keeps .code (do operator ";"; return result) :=
    (Keeps.operator rfl).returning
  have hstatic (marked : Bool) : Keeps .code (do
      word "static"
      discard (word? "mut")
      discard name
      operator ":"
      discard rules.type
      let hasValue ← operator? "="
      if hasValue then discard rules.expr
      operator ";"
      return if marked || hasValue then none else some ()) := by
    refine (Keeps.word "static").before ?_
    refine (Keeps.word? "mut").discard.before ?_
    refine Keeps.name.discard.before ?_
    refine (Keeps.operator rfl).before ?_
    refine h.plusType.discard.before ?_
    refine (Keeps.operator? rfl).bind fun _ => ?_
    exact .ite (h.expr.discard.before (hend _)) (hend _)
  refine (keeps_outerAttributes h).discard.before ?_
  refine keeps_visibility.bind fun _ => Keeps.ahead.bind fun _ => ?_
  refine .ite ?function (.ite ?static (.ite ?type ?invocation))
  case function =>
    refine (Keeps.peek _).bind fun _ => ?_
    refine (keeps_signature h true).discard.before ?_
    refine (Keeps.operator? rfl).bind fun _ => ?_
    exact .ite (.pure _) (keeps_functionBody h).discard.returning
  case static => exact .ite (Keeps.anyWord.discard.before (hstatic _)) (hstatic _)
  case type => exact (keeps_typeAlias h true true).returning
  case invocation => exact (Keeps.require _).before (keeps_invocationItem false).returning

/-! ## Items -/

/-- A module is kept, with its items or without a body. -/
theorem keeps_moduleItem (h : rules.Keep) (outer : List Attribute) (scope : Visibility) :
    Keeps .code (moduleItem rules outer scope) := by
  have hitems : Keeps .code (do
      let inner ← innerAttributes rules
      let items : List Item ← untilEnd (rules .item)
      return (inner, items)) :=
    (keeps_innerAttributes h).bind fun _ => (Keeps.untilEnd (h.form .item)).returning
  refine (Keeps.word? "unsafe").discard.before ?_
  refine (Keeps.word "mod").before ?_
  refine (Keeps.peek _).bind fun _ => ?_
  refine .ite (Keeps.anyWord.bind fun _ => ?_) (Keeps.name.bind fun _ => ?_)
  all_goals
    refine (keeps_asSegment _).bind fun _ => ?_
    refine (Keeps.operator? rfl).bind fun _ => ?_
    exact .ite (.pure _) (hitems.group .brace).returning

/-- A block of foreign declarations is kept, also members that are printed the way they are
written. -/
theorem keeps_foreignItem (h : rules.Keep) : Keeps .code (foreignItem rules) := by
  have hmembers : Keeps .code (do
      discard (innerAttributes rules)
      discard (untilEnd (orAsWritten (foreignMember rules)))) :=
    (keeps_innerAttributes h).discard.before
      (Keeps.untilEnd (keeps_foreignMember h).orAsWritten).discard
  refine (Keeps.word? "unsafe").discard.before ?_
  refine keeps_convention.before ?_
  exact (hmembers.group .brace).returning

/-- A declaration of an external crate is kept with the name that it is given. -/
theorem keeps_externCrate : Keeps .code externCrate := by
  have hend : Keeps .code (do operator ";"; return .other : Reader ItemForm) :=
    (Keeps.operator rfl).returning
  have hname : Keeps .code (do
      if ← word? "as" then discard nameOrUnderscore
      operator ";"
      return .other : Reader ItemForm) :=
    (Keeps.word? "as").bind fun _ => .ite (keeps_nameOrUnderscore.discard.before hend) hend
  refine (Keeps.word "extern").before ?_
  refine (Keeps.word "crate").before ?_
  exact (Keeps.word? "self").bind fun _ => .ite (Keeps.name.discard.before hname) hname

/-- A static variable is kept, with and without a type or a value. -/
theorem keeps_staticItem (h : rules.Keep) : Keeps .code (staticItem rules) := by
  have hvalue (form : Option ItemForm) : Keeps .code (do
      discard rules.expr
      operator ";"
      return form) := h.expr.discard.before (Keeps.operator rfl).returning
  refine (Keeps.word "static").before ?_
  refine (Keeps.word? "mut").discard.before ?_
  refine Keeps.name.discard.before ?_
  refine (Keeps.operator? rfl).bind fun _ => .ite (hvalue none) ?typed
  case typed =>
    refine (Keeps.operator rfl).before ?_
    refine h.plusType.discard.before ?_
    refine (Keeps.operator? rfl).bind fun _ => .ite (.pure none) ?_
    exact (Keeps.operator rfl).before (hvalue _)

/-- A trait is kept with its bounds and its members, and so is an alias of bounds. -/
theorem keeps_traitItem (h : rules.Keep) : Keeps .code (traitItem rules) := by
  have hbound := (keeps_paramBound h).of_type .code
  have hclause := (keeps_whereClause h).discard
  have hbounds : Keeps .type (colonBounds
      (fun ts => atWord "where" ts || atGroup .brace ts) (paramBound rules)) := by
    refine keeps_colonBounds (keeps_paramBound h) fun ts hstop => ?_
    rcases Bool.or_eq_true_iff.mp hstop with h | h <;> simp [endsBounds, h]
  have hmembers : Keeps .code (do
      discard (innerAttributes rules)
      discard (untilEnd (traitMember rules))) :=
    (keeps_innerAttributes h).discard.before (Keeps.untilEnd (keeps_traitMember h)).discard
  refine (Keeps.word? "unsafe").bind fun _ => ?_
  refine (Keeps.word? "auto").bind fun _ => ?_
  refine (Keeps.word "trait").before ?_
  refine Keeps.name.bind fun _ => ?_
  refine (keeps_genericParams h).discard.before ?_
  refine (Keeps.peek _).bind fun _ => .ite ?bounds ?members
  case bounds =>
    refine (Keeps.operator rfl).before ?_
    refine (Keeps.joined rfl hbound _).discard.before ?_
    exact hclause.before (Keeps.operator rfl).returning
  case members =>
    refine (hbounds.of_type .code).discard.before ?_
    refine hclause.before ?_
    exact (hmembers.group .brace).returning

/-- A block is kept: its parameters and signs, the trait that may stand in it, its type and its
members. -/
theorem keeps_implItem (h : rules.Keep) (outer : List Attribute) (scope : Visibility) :
    Keeps .code (implItem rules outer scope) := by
  have hblock : Keeps .code (do
      let inner ← innerAttributes rules
      return (inner, ← untilEnd (implMember rules))) :=
    (keeps_innerAttributes h).bind fun _ => (Keeps.untilEnd (keeps_implMember h)).returning
  have hmembers (isGeneric isConst isFor hasTrait : Bool) (selfType : Ty) : Keeps .code (do
      discard (whereClause rules)
      let block ← group .brace do
        let inner ← innerAttributes rules
        return (inner, ← untilEnd (implMember rules))
      if scope != .inherited || isConst || (isFor && !hasTrait) then return none
      return some fun _ => .impl ⟨outer ++ block.1, hasTrait, isGeneric, selfType,
        block.2.filterMap id⟩ : Reader (Option ItemForm)) := by
    refine (keeps_whereClause h).discard.before ?_
    refine (hblock.group .brace).bind fun block => ?_
    exact .ite (.pure none) (.pure _)
  have htypes (namesTrait : Ty → Bool) (isGeneric isConst isNegative : Bool) : Keeps .code (do
      let first ← rules.type
      let isFor ← word? "for"
      let selfType ← if isFor then rules.type
        else if isNegative then pure (Ty.other first.tokens)
        else pure first
      let hasTrait := isFor && namesTrait first
      discard (whereClause rules)
      let block ← group .brace do
        let inner ← innerAttributes rules
        return (inner, ← untilEnd (implMember rules))
      if scope != .inherited || isConst || (isFor && !hasTrait) then return none
      return some fun _ => .impl ⟨outer ++ block.1, hasTrait, isGeneric, selfType,
        block.2.filterMap id⟩ : Reader (Option ItemForm)) := by
    refine h.plusType.bind fun first => ?_
    refine (Keeps.word? "for").bind fun _ => ?_
    refine .ite (h.plusType.bind fun _ => hmembers _ _ _ _ _) ?_
    exact .ite ((Keeps.pure _).bind fun _ => hmembers _ _ _ _ _)
      ((Keeps.pure first).bind fun _ => hmembers _ _ _ _ _)
  refine (Keeps.word? "default").discard.before ?_
  refine (Keeps.word? "unsafe").discard.before ?_
  refine (Keeps.word "impl").before ?_
  refine (Keeps.peek _).bind fun _ => ?_
  refine .ite ((keeps_genericParams h).bind fun _ => ?_) ((Keeps.pure _).bind fun _ => ?_)
  all_goals
    refine (Keeps.peek _).bind fun _ => .ite ?const ?_
    case const =>
      refine (Keeps.operator? rfl).discard.before ?_
      refine (Keeps.word "const").before ?_
      refine (Keeps.peek _).bind fun _ => ?_
      exact .ite ((Keeps.operator rfl).before (htypes _ _ _ _)) (htypes _ _ _ _)
    refine (Keeps.peek _).bind fun _ => ?_
    exact .ite ((Keeps.operator rfl).before (htypes _ _ _ _)) (htypes _ _ _ _)

/-- A definition by a word is kept with the groups behind its name. -/
theorem keeps_definitionItem : Keeps .code definitionItem := by
  have hbody : Keeps .code (do
      let r ← anyGroup
      require (r.1 == .brace)) := Keeps.anyGroup.bind fun _ => .require _
  refine Keeps.anyWord.discard.before ?_
  refine Keeps.name.discard.before ?_
  exact (Keeps.peek _).bind fun _ => .ite (Keeps.anyGroup.discard.before hbody) hbody

/-- An item is kept behind its attributes and its visibility, by the word that it begins with. An
enum needs its tokens settled for more than its own form: no variant of it has a visibility. -/
theorem keeps_itemForm (h : rules.Keep) (outer : List Attribute) (scope : Visibility) :
    Keeps .code (itemForm rules outer scope) := by
  have htype {body : Reader Unit} (hbody : Keeps .code body) : Keeps .code (typeDecl rules body) :=
    keepsIf_typeDecl h isLasting_isSettled hbody
  intro c form c' hread hc
  rw [itemForm, ahead_bind] at hread
  dsimp only at hread
  rcases ite_eq_some hread with ⟨-, hread⟩ | ⟨-, hread⟩
  · have hfunction : Keeps .code (do
        discard (signature rules false)
        if ← operator? ";" then return none
        discard (functionBody rules)
        return some fun _ => .function : Reader (Option ItemForm)) :=
      (keeps_signature h false).discard.before ((Keeps.operator? rfl).bind fun _ =>
        .ite (.pure none) (keeps_functionBody h).discard.returning)
    exact hfunction _ _ _ hread hc
  rcases ite_eq_some hread with ⟨-, hread⟩ | ⟨-, hread⟩
  · exact keeps_externCrate.returning _ _ _ hread hc
  rcases ite_eq_some hread with ⟨-, hread⟩ | ⟨-, hread⟩
  · exact (Keeps.require _).before (keeps_foreignItem h).returning _ _ _ hread hc
  rcases ite_eq_some hread with ⟨-, hread⟩ | ⟨-, hread⟩
  · exact keeps_useItem _ _ _ hread hc
  rcases ite_eq_some hread with ⟨-, hread⟩ | ⟨-, hread⟩
  · exact keeps_staticItem h _ _ _ hread hc
  rcases ite_eq_some hread with ⟨-, hread⟩ | ⟨-, hread⟩
  · exact (keeps_constant h).returning _ _ _ hread hc
  rcases ite_eq_some hread with ⟨-, hread⟩ | ⟨-, hread⟩
  · exact (keeps_traitItem h).returning _ _ _ hread hc
  rcases ite_eq_some hread with ⟨-, hread⟩ | ⟨-, hread⟩
  · exact keeps_implItem h outer scope _ _ _ hread hc
  rcases ite_eq_some hread with ⟨-, hread⟩ | ⟨-, hread⟩
  · exact (keeps_moduleItem h outer scope).returning _ _ _ hread hc
  rcases ite_eq_some hread with ⟨-, hread⟩ | ⟨-, hread⟩
  · exact (keeps_typeAlias h true false).returning _ _ _ hread hc
  rcases ite_eq_some hread with ⟨-, hread⟩ | ⟨-, hread⟩
  · exact (htype (keeps_structBody h)).returning _ _ _ hread hc
  rcases ite_eq_some hread with ⟨henum, hread⟩ | ⟨-, hread⟩
  · obtain ⟨r, mid, hdecl, hread⟩ := bind_eq_some.mp hread
    obtain ⟨-, rfl⟩ := pure_eq_some.mp hread
    exact passes_enum h hdecl hc henum
  rcases ite_eq_some hread with ⟨-, hread⟩ | ⟨-, hread⟩
  · have hbody := (keeps_whereClause h).discard.before (keeps_namedFields h)
    exact (htype hbody).returning _ _ _ hread hc
  rcases ite_eq_some hread with ⟨-, hread⟩ | ⟨-, hread⟩
  · exact keeps_definitionItem.returning _ _ _ hread hc
  · exact (Keeps.require _).before (keeps_invocationItem true).returning _ _ _ hread hc

/-- An item is kept with its attributes and its visibility, also one that is printed the way it is
written. -/
theorem keeps_readItem (h : rules.Keep) : Keeps .code (readItem rules) := by
  have hitem : Keeps .code (orAsWritten do
      let outer ← outerAttributes rules
      itemForm rules outer (← visibility)) :=
    Keeps.orAsWritten ((keeps_outerAttributes h).bind fun _ =>
      keeps_visibility.bind fun _ => keeps_itemForm h _ _)
  refine (Keeps.collecting hitem).bind ?_
  rintro ⟨form, found⟩
  exact .pure _

/-! ## All forms -/

/-- Every form is kept if the forms inside it are. -/
theorem keep_readForm (h : rules.Keep) : (readForm rules).Keep where
  form
    | .expr braces => keeps_readExpr h braces
    | .operand braces => keeps_readOperand h braces
    | .climb braces left base => keeps_readClimb h braces left base
    | .statementExpr => keeps_readStatementExpr h
    | .type plus => (prints_readType h plus).keeps.of_type .code
    | .pattern => keeps_readPattern h
    | .statements => keeps_readStatements h
    | .item => keeps_readItem h
  type := prints_readType h
  start := start_of_readType
  quote := quote_of_readType h

/-- Forms are kept however deeply they are nested, by induction on the depth. -/
theorem keep_rulesUpTo (n : Nat) : (rulesUpTo n).Keep := by
  induction n with
  | zero => exact ⟨fun _ => .failure, fun _ _ _ _ h _ => (nomatch h), nofun, nofun⟩
  | succ n ih => exact keep_readForm ih

/-- What was read from all tokens was read up to their end. -/
theorem exists_of_readAll {p : Rules → Reader α} {a : α} (h : readAll? p ts = some a) :
    ∃ c', p (rulesUpTo (nesting ts)) { rest := ts } = some (a, c') ∧ c'.rest = [] := by
  unfold readAll? at h
  split at h
  case h_1 a' hfront =>
    obtain ⟨⟨b, c'⟩, hread, hvalue⟩ := Option.map_eq_some_iff.mp hfront
    obtain ⟨rfl, hrest⟩ := Prod.mk.inj hvalue
    obtain rfl := Option.some.inj h
    exact ⟨c', hread, hrest⟩
  case h_2 => exact nomatch h

/-- An item whose tokens are settled is printed as it is written, up to spacing. -/
theorem bareAll_of_ofTokens {item : Item} {tokens : List Token}
    (h : Item.ofTokens? ts = some (item, tokens)) (hts : isSettled ts) :
    bareAll tokens = bareAll ts := by
  obtain ⟨c', hread, hend⟩ := exists_of_readAll h
  obtain ⟨own, hrest, -, hown⟩ :=
    (((keep_rulesUpTo (nesting ts)).form .item).captured hread hts).1
  have hall : ts = own := by
    rw [hend, List.append_nil] at hrest
    exact hrest
  rw [hown, hall]

end ServiceDispatch.Grammar
