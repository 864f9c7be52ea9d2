import ServiceDispatch.Grammar.Reader
import ServiceDispatch.Proofs.Resolution.Paths

/-!
# Closed types

A type is closed if it means the same in every module: each path in it starts at the root of the
crate, begins with the separator or is a primitive type. Resolving a type makes its paths so. Array
lengths and constant arguments are kept as they are written, and no name in them is looked up, so a
resolved type is closed exactly if these are.
-/

namespace ServiceDispatch

/-! ## Names in expressions -/

namespace Token

/-- What stands before a token, as far as it matters for a name there. -/
inductive Before where
  | other
  /-- The first one of two colons. -/
  | colon
  /-- The separator of a path. -/
  | separator
  /-- A single dot, with a member behind it. -/
  | dot
  /-- The mark of a lifetime. -/
  | quote

/-- What stands before the next token. Two dots make a range, with another path behind them. -/
def Before.after (before : Before) : Token → Before
  | .punct ':' joint =>
    match before with
    | .colon => .separator
    | _ => if joint then .colon else .other
  | .punct '.' _ =>
    match before with
    | .dot => .other
    | _ => .dot
  | .punct '\'' _ => .quote
  | _ => .other

/-- Whether a path begins with a word. -/
def Before.isHead (before : Before) (word : String) : Bool :=
  match before with
  | .separator | .dot | .quote => false
  | _ => ["crate", "self", "super", "Self"].contains word || !Grammar.keywords.contains word

mutual

/-- The words in a token that paths begin with. -/
def heads (before : Before) : Token → List String
  | .ident word => if before.isHead word then [word] else []
  | .group _ body => headsOfAll .other body
  | _ => []

/-- The words in tokens that paths begin with. -/
def headsOfAll (before : Before) : List Token → List String
  | [] => []
  | t :: ts => t.heads before ++ headsOfAll (before.after t) ts

end

/-- Whether each path in an expression starts at the root of the crate, begins with the separator or
is one of a primitive type. -/
def AreClosed (tokens : List Token) : Prop :=
  ∀ word ∈ headsOfAll .other tokens, word = "crate" ∨ word ∈ primitiveTypes

instance (tokens : List Token) : Decidable (AreClosed tokens) :=
  inferInstanceAs (Decidable (∀ word ∈ _, _))

/-- The paths in `[crate::SIZES[0].0 + self::N; ::core::mem::size_of::<M>()..u8::MAX]`. -/
example : headsOfAll .other ([.ident "crate"] ++ operator "::" ++ [.ident "SIZES",
    .group .bracket [.literal "0"]] ++ operator "." ++ [.literal "0"] ++ operator "+" ++
    [.ident "self"] ++ operator "::" ++ [.ident "N"] ++ operator ";" ++ operator "::" ++
    [.ident "core"] ++ operator "::" ++ [.ident "size_of"] ++ operator "::" ++ operator "<" ++
    [.ident "M"] ++ operator ">" ++ [.group .paren []] ++ operator ".." ++ [.ident "u8"] ++
    operator "::" ++ [.ident "MAX"]) = ["crate", "self", "M", "u8"] := by decide

end Token

/-! ## Expressions in types -/

/-- The expression that a part of a type is, if it is one. -/
def TyPart.expr? : TyPart → Option (List Token)
  | .path _ => none
  | .length tokens => some tokens
  | .const tokens => some tokens

/-- The expression that a part of a resolved type is, if it is one. -/
def ResolvedPart.expr? : ResolvedPart → Option (List Token)
  | .path _ => none
  | .length tokens => some tokens
  | .const tokens => some tokens

/-- The array lengths and constant arguments in a type. -/
def Ty.exprs (t : Ty) : List (List Token) := t.parts.filterMap TyPart.expr?

/-- The array lengths and constant arguments in a resolved type. -/
def ResolvedTy.exprs (u : ResolvedTy) : List (List Token) := u.parts.filterMap ResolvedPart.expr?

/-- Whether a path means the same in every module. -/
def ItemPath.IsClosed (p : ItemPath) : Prop :=
  p.isCrateLocal ∨ p.isRooted ∨ p.text ∈ primitiveTypes

/-- Whether each path in a resolved type means the same in every module. -/
structure ResolvedTy.IsClosed (u : ResolvedTy) : Prop where
  paths : ∀ p, .path p ∈ u.parts → p.IsClosed
  exprs : ∀ tokens ∈ u.exprs, Token.AreClosed tokens

namespace ResolvedTy

open Results

/-- Whether a way to give paths their meaning refuses arguments before the end of a path. -/
def RefusesInner (base : BaseResolver) : Prop :=
  ∀ whole rooted segments p, base whole rooted segments = .ok p →
    (segments.dropLast.any fun s => !s.args.isEmpty) = false

variable {base : BaseResolver}

/-- Segments without arguments have no parts, also with empty brackets. -/
theorem parts_of_isEmpty {args : PathArgs} (hargs : args.isEmpty) : args.parts = [] := by
  cases args with
  | none => rfl
  | angled turbofish args trailing =>
    obtain rfl := List.isEmpty_iff.mp hargs
    rfl
  | call tokens => exact nomatch hargs

mutual

/-- The expressions in a resolved type are those of the type, in order. -/
theorem exprs_of_ofTy (hbase : RefusesInner base) (t : Ty) :
    ∀ u, ofTy base t = .ok u →
      u.parts.filterMap ResolvedPart.expr? = t.parts.filterMap TyPart.expr? := by
  intro u hu
  cases t with
  | path rooted segments =>
    rw [ofTy] at hu
    obtain ⟨p, hp, hu⟩ := bind_eq_ok_iff.mp hu
    obtain ⟨args, hargs, hu⟩ := bind_eq_ok_iff.mp hu
    have hexprs := exprs_of_ofLastArgs hbase segments (hbase _ _ _ _ hp) _ args hargs
    cases args with
    | none =>
      obtain rfl := Except.ok.inj hu
      exact hexprs
    | some args =>
      obtain rfl := Except.ok.inj hu
      exact hexprs
  | tuple elems trailing =>
    rw [ofTy] at hu
    obtain ⟨us, hus, hu⟩ := bind_eq_ok_iff.mp hu
    obtain rfl := Except.ok.inj hu
    exact exprs_of_ofTys hbase elems us hus
  | array elem length =>
    rw [ofTy] at hu
    obtain ⟨v, hv, hu⟩ := bind_eq_ok_iff.mp hu
    obtain rfl := Except.ok.inj hu
    exact congrArg (length :: ·) (exprs_of_ofTy hbase elem v hv)
  | slice elem =>
    rw [ofTy] at hu
    obtain ⟨v, hv, hu⟩ := bind_eq_ok_iff.mp hu
    obtain rfl := Except.ok.inj hu
    exact exprs_of_ofTy hbase elem v hv
  | reference lifetime mutable target =>
    rw [ofTy] at hu
    obtain ⟨-, -, hu⟩ := bind_eq_ok_iff.mp hu
    obtain ⟨v, hv, hu⟩ := bind_eq_ok_iff.mp hu
    obtain rfl := Except.ok.inj hu
    exact exprs_of_ofTy hbase target v hv
  | paren inner =>
    rw [ofTy] at hu
    exact exprs_of_ofTy hbase inner u hu
  | qualified tokens => exact nomatch hu
  | object tokens => exact nomatch hu
  | other tokens => exact nomatch hu

/-- The expressions in several resolved types are those of the types, in order. -/
theorem exprs_of_ofTys (hbase : RefusesInner base) (ts : List Ty) :
    ∀ us, ofTys base ts = .ok us → (partsOfAll us).filterMap ResolvedPart.expr? =
      (Ty.partsOfAll ts).filterMap TyPart.expr? := by
  intro us hus
  cases ts with
  | nil =>
    obtain rfl := Except.ok.inj hus
    rfl
  | cons t ts =>
    rw [ofTys] at hus
    obtain ⟨u, hu, hus⟩ := bind_eq_ok_iff.mp hus
    obtain ⟨us', hus', hus⟩ := bind_eq_ok_iff.mp hus
    obtain rfl := Except.ok.inj hus
    rw [partsOfAll, Ty.partsOfAll, List.filterMap_append, List.filterMap_append,
      exprs_of_ofTy hbase t u hu, exprs_of_ofTys hbase ts us' hus']

/-- The expressions in the resolved arguments of a path are those of its segments, in order. -/
theorem exprs_of_ofLastArgs (hbase : RefusesInner base) (segments : List Segment) :
    (segments.dropLast.any fun s => !s.args.isEmpty) = false →
      ∀ whole args, ofLastArgs base whole segments = .ok args →
        (partsOfArgs (args.getD [])).filterMap ResolvedPart.expr? =
          (Segment.partsOfAll segments).filterMap TyPart.expr? := by
  intro hinner whole args hargs
  cases segments with
  | nil =>
    obtain rfl := Except.ok.inj hargs
    rfl
  | cons segment segments =>
    cases segment with
    | mk name written =>
      cases segments with
      | nil =>
        rw [ofLastArgs] at hargs
        rw [Segment.partsOfAll, Segment.partsOfAll, List.append_nil]
        exact exprs_of_ofArgs hbase written whole args hargs
      | cons next rest =>
        rw [List.dropLast_cons_cons, List.any_cons, Bool.or_eq_false_iff] at hinner
        rw [ofLastArgs] at hargs
        have hempty : written.isEmpty := (Bool.not_eq_false' _).mp hinner.1
        rw [Segment.partsOfAll, parts_of_isEmpty hempty, List.nil_append]
        exact exprs_of_ofLastArgs hbase (next :: rest) hinner.2 whole args hargs

/-- The expressions in the resolved arguments of a segment are those of the arguments, in
order. -/
theorem exprs_of_ofArgs (hbase : RefusesInner base) (written : PathArgs) :
    ∀ whole args, ofArgs base whole written = .ok args →
      (partsOfArgs (args.getD [])).filterMap ResolvedPart.expr? =
        written.parts.filterMap TyPart.expr? := by
  intro whole args hargs
  cases written with
  | none =>
    obtain rfl := Except.ok.inj hargs
    rfl
  | angled turbofish written trailing =>
    rw [ofArgs] at hargs
    obtain ⟨args', hargs', hargs⟩ := bind_eq_ok_iff.mp hargs
    obtain rfl := Except.ok.inj hargs
    exact exprs_of_ofTyArgs hbase written whole args' hargs'
  | call tokens => exact nomatch hargs

/-- The expressions in several resolved arguments are those of the arguments, in order. -/
theorem exprs_of_ofTyArgs (hbase : RefusesInner base) (written : List TyArg) :
    ∀ whole args, ofTyArgs base whole written = .ok args →
      (partsOfArgs args).filterMap ResolvedPart.expr? =
        (TyArg.partsOfAll written).filterMap TyPart.expr? := by
  intro whole args hargs
  cases written with
  | nil =>
    obtain rfl := Except.ok.inj hargs
    rfl
  | cons arg written =>
    rw [ofTyArgs] at hargs
    obtain ⟨u, hu, hargs⟩ := bind_eq_ok_iff.mp hargs
    obtain ⟨us, hus, hargs⟩ := bind_eq_ok_iff.mp hargs
    obtain rfl := Except.ok.inj hargs
    rw [partsOfArgs, TyArg.partsOfAll, List.filterMap_append, List.filterMap_append,
      exprs_of_ofTyArg hbase arg whole u hu, exprs_of_ofTyArgs hbase written whole us hus]

/-- The expressions in a resolved argument are those of the argument, in order. -/
theorem exprs_of_ofTyArg (hbase : RefusesInner base) (written : TyArg) :
    ∀ whole arg, ofTyArg base whole written = .ok arg →
      (partsOfArg arg).filterMap ResolvedPart.expr? = written.parts.filterMap TyPart.expr? := by
  intro whole arg harg
  cases written with
  | type t =>
    rw [ofTyArg] at harg
    obtain ⟨u, hu, harg⟩ := bind_eq_ok_iff.mp harg
    obtain rfl := Except.ok.inj harg
    exact exprs_of_ofTy hbase t u hu
  | lifetime name =>
    rw [ofTyArg] at harg
    split at harg
    · obtain rfl := Except.ok.inj harg
      rfl
    · exact nomatch harg
  | const value =>
    obtain rfl := Except.ok.inj harg
    rfl
  | binding tokens => exact nomatch harg

end

end ResolvedTy

namespace SymbolTable

variable {table : SymbolTable}

/-- Arguments are refused before the end of a path, where they would be lost. -/
theorem refusesInner_resolveBase (scope : ItemPath) :
    ResolvedTy.RefusesInner (table.resolveBase scope) := by
  intro whole rooted segments p hp
  unfold resolveBase at hp
  dsimp only at hp
  split at hp
  · exact nomatch hp
  · rename_i hinner
    exact Bool.not_eq_true _ ▸ hinner

/-- What a path in a type of a module of the crate resolves to means the same in every module. -/
theorem isClosed_of_resolveBase (htable : table.WellNamed IsColonFree) {scope : ItemPath}
    (hscope : scope.InCrate) {whole : String} {rooted : Bool} {segments : List Segment}
    {p : ItemPath} (hp : table.resolveBase scope whole rooted segments = .ok p) : p.IsClosed := by
  have hprelude : ∀ p ∈ preludeTypes.map Prod.snd, p.ExternalBy fun _ => True :=
    fun p hp => externalBy_of_mem_preludeTypes hp fun _ _ => trivial
  rcases resolveNamesBy_anchored (htable.lookupWithin_anchors (fun _ => id) maxSteps) (fun _ => id)
      (fun _ _ => trivial) (.inl trivial) hprelude hscope (fun _ _ => trivial)
      (resolveBase_eq_ok hp).1 with (hcrate | hexternal) | ⟨-, name, hname, -, rfl, -⟩
  · exact .inl hcrate.isCrateLocal
  · exact .inr (.inl hexternal.isRooted)
  · exact .inr (.inr hname)

/-- Each path that resolution writes into a type means the same in every module. Array lengths and
constant arguments are those of the type as it is written, whatever is declared: the rendered type
is closed exactly if these are. The hypothesis excludes names with colons in them, which no source
text has. -/
theorem isClosed_iff_of_resolveTy (htable : table.WellNamed IsColonFree) {scope : ItemPath}
    (hscope : scope.InCrate) {t : Ty} {r : String} (hr : table.resolveTy scope t = .ok r) :
    ∃ u, ResolvedTy.ofTy (table.resolveBase scope) t = .ok u ∧ u.text = r ∧
      (∀ p, .path p ∈ u.parts → p.IsClosed) ∧ u.exprs = t.exprs ∧
      (u.IsClosed ↔ ∀ tokens ∈ t.exprs, Token.AreClosed tokens) := by
  rw [resolveTy_eq] at hr
  obtain ⟨u, hu, htext⟩ := Results.map_eq_ok_iff.mp hr
  have hpaths : ∀ p, .path p ∈ u.parts → p.IsClosed := by
    intro p hpart
    obtain ⟨whole, rooted, segments, hp, -⟩ := ResolvedTy.comesFrom_of_ofTy t u hu _ hpart
    exact isClosed_of_resolveBase htable hscope hp
  have hexprs : u.exprs = t.exprs :=
    ResolvedTy.exprs_of_ofTy (refusesInner_resolveBase scope) t u hu
  refine ⟨u, hu, htext, hpaths, hexprs, fun hclosed => ?_, fun hclosed => ⟨hpaths, ?_⟩⟩
  · exact hexprs ▸ hclosed.exprs
  · exact hexprs ▸ hclosed

/-- A type with an imported item and a literal length, in which no name of the module is left. -/
theorem isClosed_iff_of_resolveTy_identifiers :
    let scope : ItemPath := ⟨"crate::acc"⟩
    let t : Ty := .array (.path false [.mk "UserId" .none]) [.literal "4"]
    identifiers.WellNamed IsColonFree ∧ scope.InCrate ∧
      identifiers.resolveTy scope t = .ok "[crate::ids::UserId; 4]" ∧
      ∃ u, ResolvedTy.ofTy (identifiers.resolveBase scope) t = .ok u ∧
        u.text = "[crate::ids::UserId; 4]" ∧
        (∀ p, .path p ∈ u.parts → p.IsClosed) ∧ u.exprs = t.exprs ∧
        (u.IsClosed ↔ ∀ tokens ∈ t.exprs, Token.AreClosed tokens) := by
  have hscope : (ItemPath.mk "crate::acc").InCrate := ⟨["acc"], by decide, rfl⟩
  exact ⟨wellNamed_identifiers, hscope, rfl,
    isClosed_iff_of_resolveTy wellNamed_identifiers hscope rfl⟩

/-- A length with a name resolves to itself, although the name means something in its module only:
nothing of that name is declared, and in a type the name would be an error. -/
theorem resolveTy_namedLength :
    let t : Ty := .array (.path false [.mk "u8" .none]) [.ident "LEN"]
    identifiers.resolveTy ⟨"crate::ids"⟩ t = .ok "[u8; LEN]" ∧
      (∀ u, ResolvedTy.ofTy (identifiers.resolveBase ⟨"crate::ids"⟩) t = .ok u → ¬ u.IsClosed) ∧
      identifiers.resolveTy ⟨"crate::ids"⟩ (.path false [.mk "LEN" .none]) =
        .error (.unknownName "LEN") := by
  refine ⟨rfl, fun u hu hclosed => ?_, rfl⟩
  have hexprs : u.exprs = [[.ident "LEN"]] :=
    ResolvedTy.exprs_of_ofTy (refusesInner_resolveBase _) _ u hu
  have hlength := hclosed.exprs [.ident "LEN"] (hexprs ▸ List.mem_singleton_self _)
  exact absurd hlength (by decide)

end SymbolTable

end ServiceDispatch
