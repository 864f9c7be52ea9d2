import ServiceDispatch.Proofs.Printing.Settled
import ServiceDispatch.Proofs.Reading.Inversion

/-!
# Tokens that are kept

A form is kept if its tokens, up to spacing, are those that are printed for it. In types a comma or
angle bracket at the top belongs to a list, so that a list can be told apart without reading its
arguments. A list in angle brackets is kept if it is in order.
-/

namespace ServiceDispatch.Grammar

open Token (bare bareAll)

variable {α : Type} {ts mid rest own out out' : List Token}

/-! ## Brackets -/

/-- Whether a token can stand in a type wherever it may. -/
def isFree : Token → Bool
  | .punct c _ => !(c == '<' || c == '>' || c == ',' || c == '-')
  | _ => true

/-- Whether angle brackets are paired and, unless `commas` allows them, commas stand only between
them. The bracket of an arrow is none. -/
inductive Balanced : Bool → List Token → Prop
  | nil {commas : Bool} : Balanced commas []
  | free {commas : Bool} {t : Token} {ts : List Token} (ht : isFree t)
      (more : Balanced commas ts) : Balanced commas (t :: ts)
  | comma {joint : Bool} {ts : List Token} (more : Balanced true ts) :
      Balanced true (.punct ',' joint :: ts)
  | arrow {commas joint joint' : Bool} {ts : List Token} (more : Balanced commas ts) :
      Balanced commas (.punct '-' joint :: .punct '>' joint' :: ts)
  | negative {commas joint : Bool} {text : String} {ts : List Token} (more : Balanced commas ts) :
      Balanced commas (.punct '-' joint :: .literal text :: ts)
  | brackets {commas joint joint' : Bool} {inner ts : List Token} (hinner : Balanced true inner)
      (more : Balanced commas ts) :
      Balanced commas (.punct '<' joint :: (inner ++ .punct '>' joint' :: ts))

namespace Balanced

variable {commas : Bool}

/-- Balanced tokens behind balanced ones are balanced with them, with commas at the top or without.
-/
theorem append (h : Balanced commas own) (hts : Balanced commas ts) :
    Balanced commas (own ++ ts) := by
  induction h with
  | nil => exact hts
  | free ht _ ih => exact .free ht (ih hts)
  | comma _ ih => exact .comma (ih hts)
  | arrow _ ih => exact .arrow (ih hts)
  | negative _ ih => exact .negative (ih hts)
  | brackets hinner _ _ ih =>
    rw [List.cons_append, List.append_assoc]
    exact .brackets hinner (ih hts)

/-- Commas may be allowed: tokens without commas at the top are balanced with them, too. -/
theorem allowing (h : Balanced commas ts) : Balanced true ts := by
  induction h with
  | nil => exact .nil
  | free ht _ ih => exact .free ht ih
  | comma _ ih => exact .comma ih
  | arrow _ ih => exact .arrow ih
  | negative _ ih => exact .negative ih
  | brackets hinner _ _ ih => exact .brackets hinner ih

/-- The order of a list does not depend on balanced tokens at its front; commas have to stand in
brackets. -/
theorem isUnordered_append (h : Balanced commas own) {depth : Nat} (hdepth : commas → 0 < depth)
    (other : Bool) (rest : List Token) :
    isUnordered other depth (own ++ rest) = isUnordered other depth rest := by
  induction h generalizing depth rest with
  | nil => rfl
  | @free commas t ts ht _ ih =>
    refine Eq.trans ?_ (ih hdepth rest)
    cases t with
    | punct c joint =>
      have hc : ((¬ c = '<' ∧ ¬ c = '>') ∧ ¬ c = ',') ∧ ¬ c = '-' := by simpa [isFree] using ht
      cases depth <;> simp [isUnordered, hc]
    | _ => cases depth <;> simp [isUnordered]
  | @comma joint ts _ ih =>
    obtain ⟨depth, rfl⟩ := Nat.exists_eq_succ_of_ne_zero (hdepth rfl).ne'
    simpa [isUnordered] using ih hdepth rest
  | arrow _ ih => simpa [isUnordered] using ih hdepth rest
  | negative _ ih => cases depth <;> simpa [isUnordered] using ih hdepth rest
  | @brackets commas joint joint' inner ts _ _ ihinner ih =>
    rw [List.cons_append, List.append_assoc, List.cons_append]
    have hopen : isUnordered other depth (.punct '<' joint :: (inner ++ .punct '>' joint' ::
        (ts ++ rest))) = isUnordered other (depth + 1) (inner ++ .punct '>' joint' ::
          (ts ++ rest)) := by simp [isUnordered]
    rw [hopen, ihinner (fun _ => Nat.succ_pos depth)]
    simpa [isUnordered] using ih hdepth rest

end Balanced

/-! ## Kept tokens -/

/-- Where tokens stand. -/
inductive Place where
  | code
  /-- In a list in angle brackets. -/
  | list
  /-- In a type or in one argument of a list. -/
  | type
deriving DecidableEq, Repr

/-- Whether tokens can stand in a place as they are. -/
def Spans : Place → List Token → Prop
  | .code, _ => True
  | .list, own => Balanced true own
  | .type, own => Balanced false own

/-- What can stand in a type can stand in every place. -/
theorem Spans.of_type (h : Spans .type own) (place : Place) : Spans place own := by
  cases place with
  | code => trivial
  | list => exact h.allowing
  | type => exact h

/-- No tokens can stand in every place. -/
theorem Spans.nil (place : Place) : Spans place [] :=
  Spans.of_type Balanced.nil place

/-- Tokens that can stand in a place can stand there one after the other. -/
theorem Spans.append {place : Place} (h : Spans place own) (hts : Spans place ts) :
    Spans place (own ++ ts) := by
  cases place with
  | code => trivial
  | list => exact Balanced.append h hts
  | type => exact Balanced.append h hts

/-- Whether the tokens up to `rest` are printed as they are. -/
def Kept (place : Place) (ts rest out : List Token) : Prop :=
  ∃ own, ts = own ++ rest ∧ Spans place own ∧ bareAll out = bareAll own

namespace Kept

variable {place : Place}

/-- Nothing is kept. -/
theorem refl (place : Place) (ts : List Token) : Kept place ts ts [] :=
  ⟨[], rfl, .nil place, rfl⟩

/-- What is kept behind something kept is kept with it. -/
theorem trans (h : Kept place ts mid out) (hmore : Kept place mid rest out') :
    Kept place ts rest (out ++ out') := by
  obtain ⟨own, rfl, hspans, hown⟩ := h
  obtain ⟨own', rfl, hspans', hown'⟩ := hmore
  refine ⟨own ++ own', (List.append_assoc _ _ _).symm, hspans.append hspans', ?_⟩
  rw [Token.bareAll_append, Token.bareAll_append, hown, hown']

/-- What is kept in a type is kept in every place. -/
theorem of_type (h : Kept .type ts rest out) (place : Place) : Kept place ts rest out := by
  obtain ⟨own, hts, hspans, hown⟩ := h
  exact ⟨own, hts, hspans.of_type place, hown⟩

/-- What is kept in any place is kept in code. -/
theorem code (h : Kept place ts rest out) : Kept .code ts rest out := by
  obtain ⟨own, hts, -, hown⟩ := h
  exact ⟨own, hts, trivial, hown⟩

/-- What is left behind settled tokens is settled, whatever was printed for those. -/
theorem isSettled (h : Kept place ts rest out) (hts : isSettled ts) : isSettled rest := by
  obtain ⟨own, rfl, -, -⟩ := h
  exact isSettled_of_append hts

/-- A free token is kept. -/
theorem cons {t : Token} (ht : isFree t) (place : Place) (ts : List Token) :
    Kept place (t :: ts) ts [t] :=
  ⟨[t], rfl, Spans.of_type (.free ht .nil) place, rfl⟩

/-- Whether tokens are kept depends on them up to spacing. -/
theorem congr (h : Kept place ts rest out) (hout : bareAll out' = bareAll out) :
    Kept place ts rest out' := by
  obtain ⟨own, hts, hspans, hown⟩ := h
  exact ⟨own, hts, hspans, hout.trans hown⟩

/-- What stands between angle brackets is kept with them. -/
theorem brackets {joint joint' : Bool} (h : Kept .list ts (.punct '>' joint' :: rest) out)
    (place : Place) : Kept place (.punct '<' joint :: ts) rest
      (Token.operator "<" ++ out ++ Token.operator ">") := by
  obtain ⟨own, rfl, hspans, hown⟩ := h
  refine ⟨.punct '<' joint :: (own ++ [.punct '>' joint']), by simp,
    Spans.of_type (.brackets hspans .nil) place, ?_⟩
  simp [Token.operator, bareAll, bare, hown]

end Kept

/-! ## Lists -/

/-- Tokens joined by commas; `trailing` tells whether a comma stands at the end. -/
def joinAll : List (List Token) → Bool → List Token
  | [], _ => []
  | own :: more, trailing =>
    own ++ (if more.isEmpty && !trailing then [] else Token.operator ",") ++ joinAll more trailing

/-- Whether tokens are a list: values with a comma behind each, which may be missing at the end. `Q`
tells which tokens are those of a value. -/
inductive Listed (Q : List Token → α → List Token → Prop) :
    List Token → List α → Bool → List Token → Prop
  | nil {ts : List Token} : Listed Q ts [] false ts
  | last {ts rest : List Token} {a : α} (ha : Q ts a rest) : Listed Q ts [a] false rest
  | lastComma {ts rest : List Token} {a : α} {joint : Bool}
      (ha : Q ts a (.punct ',' joint :: rest)) : Listed Q ts [a] true rest
  | next {ts mid rest : List Token} {a b : α} {bs : List α} {joint trailing : Bool}
      (ha : Q ts a (.punct ',' joint :: mid)) (more : Listed Q mid (b :: bs) trailing rest) :
      Listed Q ts (a :: b :: bs) trailing rest

namespace Listed

variable {Q : List Token → α → List Token → Prop} {values : List α} {trailing : Bool}
  {own : α → List Token}

/-- A list is kept if its values are, and the commas may stand in its place. What can stand in the
place of a value has to be allowed in that of the list. -/
theorem kept {place place' : Place} (h : Listed Q ts values trailing rest)
    (hspans : ∀ ts, Spans place ts → Spans place' ts) (hcomma : place' ≠ .type)
    (hown : ∀ ts a rest, Q ts a rest → isSettled ts → Kept place ts rest (own a))
    (hts : isSettled ts) : Kept place' ts rest (joinAll (values.map own) trailing) := by
  have hvalue {ts rest : List Token} {a : α} (ha : Q ts a rest) (hts : isSettled ts) :
      Kept place' ts rest (own a) := by
    obtain ⟨own, htokens, hspan, hbare⟩ := hown _ _ _ ha hts
    exact ⟨own, htokens, hspans _ hspan, hbare⟩
  have hseparator (joint : Bool) (ts : List Token) :
      Kept place' (.punct ',' joint :: ts) ts (Token.operator ",") := by
    refine ⟨[.punct ',' joint], rfl, ?_, rfl⟩
    cases place' with
    | code => trivial
    | list => exact Balanced.comma .nil
    | type => exact absurd rfl hcomma
  induction h with
  | nil => exact .refl _ _
  | last ha => simpa [joinAll] using hvalue ha hts
  | lastComma ha => simpa [joinAll] using (hvalue ha hts).trans (hseparator _ _)
  | @next ts mid rest a b bs joint trailing ha _ ih =>
    have hfirst := (hvalue ha hts).trans (hseparator joint mid)
    simpa [joinAll] using hfirst.trans (ih (hfirst.isSettled hts))

end Listed

/-! ## Order -/

/-- Whether the mark of an argument fits the tokens that it begins with. -/
def FitsMark (isLifetime : Bool) (ts : List Token) : Prop :=
  if isLifetime then atLifetime (pastAttributes ts) else startsOther ts

/-- Whether no lifetime stands behind another argument. -/
def IsOrdered (args : List (Bool × List Token)) : Prop := args.Pairwise fun a b => b.1 → a.1

/-- The arguments of a list that is not unordered are in order. The induction goes on behind a
comma, where the order of what is left is that of the whole list. -/
theorem Listed.isOrdered {Q : List Token → α → List Token → Prop} {values : List α}
    {trailing : Bool} {arg : α → Bool × List Token} (h : Listed Q ts values trailing rest)
    (harg : ∀ ts a rest, Q ts a rest → isSettled ts →
      Kept .type ts rest (arg a).2 ∧ FitsMark (arg a).1 ts)
    (hts : isSettled ts) (other : Bool) (hstart : (other && atLifetime (pastAttributes ts)) = false)
    (hordered : isUnordered (other || startsOther ts) 0 ts = false) :
    IsOrdered (values.map arg) ∧ (other → ∀ a ∈ values, (arg a).1 = false) := by
  have hmark {ts : List Token} {mark other : Bool} (hfits : FitsMark mark ts)
      (hstart : (other && atLifetime (pastAttributes ts)) = false) (hother : other) :
      mark = false := by
    subst hother
    cases mark with
    | false => rfl
    | true => exact absurd (hstart.symm.trans hfits) (by decide)
  induction h generalizing other with
  | nil => exact ⟨.nil, fun _ => List.forall_mem_nil _⟩
  | last ha | lastComma ha =>
    refine ⟨List.pairwise_singleton _ _, fun hother b hb => ?_⟩
    rw [List.mem_singleton.mp hb]
    exact hmark (harg _ _ _ ha hts).2 hstart hother
  | @next ts mid rest a b bs joint trailing ha _ ih =>
    obtain ⟨hkept, hfits⟩ := harg _ _ _ ha hts
    have hcomma : isSettled ([.punct ',' joint] ++ mid) := hkept.isSettled hts
    have hmid := isSettled_of_append hcomma
    obtain ⟨own, rfl, hspans, -⟩ := hkept
    rw [Balanced.isUnordered_append hspans nofun, isUnordered, Bool.or_eq_false_iff] at hordered
    obtain ⟨hpairs, hafter⟩ := ih hmid _ hordered.1 hordered.2
    have hlater (hmark : (arg a).1 = false) (c : α) (hc : c ∈ b :: bs) : (arg c).1 = false := by
      refine hafter (Bool.or_eq_true_iff.mpr (.inr ?_)) c hc
      rwa [FitsMark, hmark] at hfits
    refine ⟨List.pairwise_cons.mpr ⟨fun c hc hlifetime => ?_, hpairs⟩, fun hother c hc => ?_⟩
    · obtain ⟨c, hvalue, rfl⟩ := List.mem_map.mp hc
      by_contra hother
      have hfalse := hlater (Bool.eq_false_iff.mpr hother) c hvalue
      exact absurd (hfalse.symm.trans hlifetime) (by decide)
    · have hfirst := hmark hfits hstart hother
      rcases List.mem_cons.mp hc with rfl | hc
      · exact hfirst
      · exact hlater hfirst c hc

/-- Arguments with marks that tell whether a comma stands behind them. -/
def withCommas (trailing : Bool) : List (Bool × List Token) → List (Bool × List Token × Bool)
  | [] => []
  | arg :: more => (arg.1, arg.2, !more.isEmpty || trailing) :: withCommas trailing more

/-- The tokens of an argument and of the comma behind it. -/
def commaTokens (arg : Bool × List Token × Bool) : List Token :=
  arg.2.1 ++ if arg.2.2 then Token.operator "," else []

variable {args : List (Bool × List Token)} {trailing : Bool}

/-- Commas stand behind all arguments but the last one, behind which one may stand. -/
theorem withCommas_eq_map (args : List (Bool × List Token)) (trailing : Bool) (start : Nat) :
    (args.zipIdx start).map (fun ((isLifetime, tokens), i) =>
      (isLifetime, tokens, decide (i < start + (args.length - 1)) || trailing)) =
        withCommas trailing args := by
  induction args generalizing start with
  | nil => rfl
  | cons arg more ih =>
    rw [List.zipIdx_cons, List.map_cons, withCommas, ← ih (start + 1)]
    have hlast : start + ((arg :: more).length - 1) = start + more.length := rfl
    congr 1
    · cases more <;> simp
    · refine List.map_congr_left fun entry hentry => ?_
      have hstart : start + 1 ≤ entry.2 := List.le_snd_of_mem_zipIdx hentry
      have hlength : start + 1 ≤ start + more.length := by
        cases more with
        | nil => exact absurd hentry List.not_mem_nil
        | cons => simp
      have hsum : start + 1 + (more.length - 1) = start + more.length := by omega
      rw [hlast, hsum]

/-- Arguments with their commas are the arguments joined by commas. -/
theorem flatMap_withCommas (args : List (Bool × List Token)) (trailing : Bool) :
    (withCommas trailing args).flatMap commaTokens = joinAll (args.map (·.2)) trailing := by
  induction args with
  | nil => rfl
  | cons arg more ih =>
    rw [withCommas, List.flatMap_cons, ih, List.map_cons, joinAll]
    cases more <;> cases trailing <;> rfl

/-- An argument without a comma is the last one. -/
theorem eq_nil_of_withCommas {front back : List (Bool × List Token × Bool)} {isLifetime : Bool}
    {tokens : List Token}
    (h : withCommas trailing args = front ++ (isLifetime, tokens, false) :: back) : back = [] := by
  induction args generalizing front with
  | nil => simp [withCommas] at h
  | cons arg more ih =>
    cases front with
    | nil =>
      obtain ⟨hhead, rfl⟩ := List.cons.inj h
      obtain rfl : more = [] := by
        have hcomma : (!more.isEmpty || trailing) = false := by injections
        rw [Bool.or_eq_false_iff] at hcomma
        simpa using hcomma.1
      rfl
    | cons _ front => exact ih (List.cons.inj h).2

/-- The elements with a property that all stand in front stay in front. -/
theorem filter_append_filter_not {α : Type} {q : α → Bool} {as : List α}
    (h : as.Pairwise fun a b => q b → q a) : as.filter q ++ as.filter (!q ·) = as := by
  induction as with
  | nil => rfl
  | cons a as ih =>
    obtain ⟨hfirst, hpairs⟩ := List.pairwise_cons.mp h
    by_cases hq : q a
    · simp [hq, ih hpairs]
    · have hnone : as.filter q = [] :=
        List.filter_eq_nil_iff.mpr fun b hb hqb => hq (hfirst b hb hqb)
      have hall := ih hpairs
      rw [hnone, List.nil_append] at hall
      simp [hq, hnone, hall]

/-- The commas do not change which arguments are lifetimes. -/
theorem map_withCommas (args : List (Bool × List Token)) (trailing : Bool) :
    (withCommas trailing args).map (·.1) = args.map (·.1) := by
  induction args with
  | nil => rfl
  | cons arg more ih => rw [withCommas, List.map_cons, List.map_cons, ih]

/-- Arguments that are in order are printed in it. A lifetime without a comma behind it is the last
argument, so that no comma is added. -/
theorem arrangeArgs_of_isOrdered (h : IsOrdered args) (trailing : Bool) :
    arrangeArgs args trailing = joinAll (args.map (·.2)) trailing := by
  have hmarked := withCommas_eq_map args trailing 0
  rw [Nat.zero_add] at hmarked
  have hordered : (withCommas trailing args).Pairwise fun a b => b.1 → a.1 := by
    have hmarks : ((withCommas trailing args).map (·.1)).Pairwise fun a b : Bool => b → a := by
      rw [map_withCommas]
      exact List.pairwise_map.mpr h
    exact List.pairwise_map.mp hmarks
  have hsplit : (withCommas trailing args).filter (fun arg => arg.1) ++
      (withCommas trailing args).filter (fun arg => !arg.1) = withCommas trailing args :=
    filter_append_filter_not hordered
  have hlast {isLifetime : Bool} {tokens : List Token}
      (hlast : ((withCommas trailing args).filter fun arg => arg.1).getLast? =
        some (isLifetime, tokens, false)) :
      (withCommas trailing args).filter (fun arg => !arg.1) = [] := by
    obtain ⟨front, hfront⟩ := List.getLast?_eq_some_iff.mp hlast
    rw [hfront, List.append_assoc] at hsplit
    exact eq_nil_of_withCommas hsplit.symm
  rw [← flatMap_withCommas, ← hsplit, List.flatMap_append]
  unfold arrangeArgs
  simp only [hmarked]
  split
  case h_1 isLifetime tokens hsome =>
    rw [hlast hsome, List.isEmpty_nil, if_pos rfl, List.append_nil]
    rfl
  case h_2 =>
    rw [List.append_nil]
    rfl

end ServiceDispatch.Grammar
