import ServiceDispatch.Marker
import ServiceDispatch.ServiceAttribute
import ServiceDispatch.Proofs.Reading.Literals

/-!
# Arguments of the service attribute

The attribute reads its arguments one after the other, and a marker reads them as a list of
expressions. Both take a name with at most one argument behind it. A marker also takes a name with
attributes in front of it or with more than one argument behind it, which the attribute refuses.
-/

namespace ServiceDispatch

namespace Grammar

variable {α : Type} {rules : Rules} {c c' : Cursor}

/-! ## Reading lists -/

/-- An argument is an expression, with what was written in it. -/
theorem argument_eq (rules : Rules) (ts written : List Token) (found : List Item) :
    argument rules ⟨ts, written, found⟩ = (rules.expr ⟨ts, [], found⟩).map fun r =>
      ((r.1, r.2.written.reverse), { r.2 with written }) := by
  show (rules.expr ⟨ts, [], found⟩).bind _ = _
  cases rules.expr ⟨ts, [], found⟩ <;> rfl

/-- What was written before an argument does not matter. -/
theorem argument_written {ts : List Token} {written : List Token} {found : List Item}
    {a : ExprForm × List Token} (h : argument rules ⟨ts, written, found⟩ = some (a, c))
    (written' : List Token) :
    argument rules ⟨ts, written', found⟩ = some (a, { c with written := written' }) := by
  rw [argument_eq] at h ⊢
  obtain ⟨r, hr, hvalue⟩ := Option.map_eq_some_iff.mp h
  obtain ⟨rfl, rfl⟩ := Prod.mk.inj hvalue
  rw [hr]
  rfl

/-- A literal at the end or before a comma is an argument. -/
theorem argument_literal {text : String} {tokens ts : List Token} (hts : Stops true ts)
    (written : List Token) (found : List Item) :
    argument (rulesUpTo (nesting tokens)) ⟨.literal text :: ts, written, found⟩ =
      some ((.literal text, [.literal text]), ⟨ts, written, found⟩) := by
  rw [argument_eq, Rules.expr, nesting, expr_of_literal hts]
  rfl

/-- The arguments of a list are read up to its end. -/
theorem argumentList?_eq_some {ts : List Token} {arguments : List (ExprForm × List Token)} :
    argumentList? ts = some arguments ↔ ∃ trailing c,
      separatedUpTo List.isEmpty "," (argument (rulesUpTo (nesting ts))) (ts.length + 2) []
        ⟨ts, [], []⟩ = some ((arguments, trailing), c) ∧ c.rest = [] := by
  have hlist : commaList (argument (rulesUpTo (nesting ts))) ⟨ts, [], []⟩ =
    separatedUpTo List.isEmpty "," (argument (rulesUpTo (nesting ts))) (ts.length + 2) []
      ⟨ts, [], []⟩ := rfl
  unfold argumentList? readAll? readFront?
  beta_reduce
  rw [hlist]
  cases separatedUpTo List.isEmpty "," (argument (rulesUpTo (nesting ts))) (ts.length + 2) []
      ⟨ts, [], []⟩ with
  | none => exact ⟨nofun, nofun⟩
  | some r =>
    obtain ⟨⟨values, trailing⟩, rest, written, found⟩ := r
    cases rest <;> simp

/-- Only nothing is a list without arguments: a comma alone is none. -/
theorem eq_nil_of_argumentList? {ts : List Token} (h : argumentList? ts = some []) : ts = [] := by
  obtain ⟨trailing, c, hread, -⟩ := argumentList?_eq_some.mp h
  obtain ⟨more, hvalues, hgo⟩ := separatedUpTo_prefix hread
  obtain rfl : more = [] := hvalues.symm
  by_contra hne
  exact hgo (List.isEmpty_eq_false_iff.mpr hne) rfl

end Grammar

namespace ServiceAttribute

open Grammar

variable {rules : Rules} {text : String} {ts written : List Token} {found : List Item}

/-! ## What the attribute takes -/

/-- Whether the arguments behind a name end: nothing is left, or one comma. -/
def EndsArguments (ts : List Token) : Prop := ts = [] ∨ ∃ joint, ts = [.punct ',' joint]

/-- The arguments that the attribute takes, with the marker that they stand for: none at all, a
name, or a name and one argument. -/
inductive Takes : List Token → Marker → Prop where
  | nothing : Takes [] .bare
  | name {text name : String} {rest : List Token} (hname : Literal.stringValue? text = some name)
      (hrest : EndsArguments rest) : Takes (.literal text :: rest) (.named name none)
  | argument {text name : String} {joint : Bool} {t : Token} {ts : List Token}
      {argument : ExprForm × List Token} (hname : Literal.stringValue? text = some name)
      (hlist : argumentList? (.literal text :: .punct ',' joint :: t :: ts) =
        some [(.literal text, [.literal text]), argument]) :
      Takes (.literal text :: .punct ',' joint :: t :: ts)
        (.named name (some (Marker.argumentText argument)))

/-- What follows a name is taken up to the end. -/
theorem readAfterName_of_ends {c : Cursor} (hend : EndsArguments c.rest) :
    ∃ c', readAfterName rules c = some (.ok (), c') := by
  obtain ⟨rest, written, found⟩ := c
  rcases hend with hnil | ⟨joint, hcomma⟩
  · obtain rfl : rest = [] := hnil
    exact ⟨_, rfl⟩
  · obtain rfl : rest = [.punct ',' joint] := hcomma
    exact ⟨_, rfl⟩

/-- An argument behind a name and a comma is taken up to the end. -/
theorem readAfterName_of_argument {joint : Bool} {t : Token} {argument : ExprForm × List Token}
    {after : Cursor}
    (hargument : Grammar.argument rules ⟨t :: ts, [], found⟩ = some (argument, after))
    (hend : EndsArguments after.rest) :
    ∃ c', readAfterName rules ⟨.punct ',' joint :: t :: ts, written, found⟩ =
      some (.ok (), c') := by
  have hread := discard_of_eq (argument_written hargument (.punct ',' false :: written))
  obtain ⟨rest, own, found'⟩ := after
  have hlast : ∃ held c', operator? "," ⟨rest, .punct ',' false :: written, found'⟩ =
      some (held, c') ∧ c'.rest = [] := by
    rcases hend with hnil | ⟨joint', hcomma⟩
    · obtain rfl : rest = [] := hnil
      exact ⟨false, _, rfl, rfl⟩
    · obtain rfl : rest = [.punct ',' joint'] := hcomma
      exact ⟨true, _, rfl, rfl⟩
  obtain ⟨held, c', hcomma, hnil⟩ := hlast
  refine ⟨c', bind_eq_some.mpr ⟨true, _, rfl, bind_eq_some.mpr ⟨false, _, rfl,
    bind_eq_some.mpr ⟨(), _, hread, bind_eq_some.mpr ⟨(), c', discard_of_eq hcomma, ?_⟩⟩⟩⟩⟩
  exact bind_eq_some.mpr ⟨true, c', pure_eq_some.mpr ⟨List.isEmpty_iff.mpr hnil, rfl⟩, rfl⟩

/-- Behind a name the attribute takes a comma, an argument and another comma, up to the end. -/
theorem readAfterName_ok {c c' : Cursor} (h : readAfterName rules c = some (.ok (), c')) :
    EndsArguments c.rest ∨ ∃ joint t ts argument after, c.rest = .punct ',' joint :: t :: ts ∧
      Grammar.argument rules ⟨t :: ts, [], c.found⟩ = some (argument, after) ∧
        EndsArguments after.rest := by
  have hend {c : Cursor} (h : (do return if ← atEnd then .ok () else .error .tooManyArguments :
      Reader (Except ServiceAttributeError Unit)) c = some (.ok (), c')) : c.rest = [] := by
    obtain ⟨held, between, hpeek, h⟩ := bind_eq_some.mp h
    obtain ⟨hheld, rfl⟩ := peek_eq_some hpeek
    cases held with
    | true => exact List.isEmpty_iff.mp hheld
    | false => exact nomatch (pure_eq_some.mp h).1
  unfold readAfterName at h
  obtain ⟨comma, behind, hcomma, h⟩ := bind_eq_some.mp h
  rcases operator?_comma hcomma with ⟨rfl, joint, hrest, hfound⟩ | ⟨rfl, rfl⟩
  · obtain ⟨held, between, hpeek, h⟩ := bind_eq_some.mp h
    obtain ⟨hheld, rfl⟩ := peek_eq_some hpeek
    cases held with
    | true => exact .inl (.inr ⟨joint, by rw [hrest, List.isEmpty_iff.mp hheld]⟩)
    | false =>
      obtain ⟨t, ts, hts⟩ := List.exists_cons_of_ne_nil (List.isEmpty_eq_false_iff.mp hheld)
      obtain ⟨_, after, hargument, h⟩ := bind_eq_some.mp h
      obtain ⟨argument, hargument⟩ := discard_eq_some hargument
      obtain ⟨_, last, hlast, h⟩ := bind_eq_some.mp h
      obtain ⟨more, hlast⟩ := discard_eq_some hlast
      have hnil := hend h
      refine .inr ⟨joint, t, ts, argument, { after with written := [] }, ?_, ?_, ?_⟩
      · rw [hrest, hts]
      · have hread := argument_written hargument []
        rwa [hts, hfound] at hread
      · rcases operator?_comma hlast with ⟨-, joint', hcomma, -⟩ | ⟨-, rfl⟩
        · exact .inr ⟨joint', by rw [← hnil, ← hcomma]⟩
        · exact .inl hnil
  · exact .inl (.inl (hend h))

/-- A name alone is a list of one, with and without a comma behind it. -/
theorem argumentList?_name {rest : List Token} (hend : EndsArguments rest) :
    argumentList? (.literal text :: rest) = some [(.literal text, [.literal text])] := by
  rw [argumentList?_eq_some]
  rcases hend with rfl | ⟨joint, rfl⟩
  · exact ⟨false, _, separatedUpTo_last rfl (argument_literal (.nil _ _) _ _) rfl, rfl⟩
  · have hfirst : Stops true [.punct ',' joint] := .punct (by decide) _ _ _
    refine ⟨true, ⟨[], [.punct ',' false], []⟩, ?_, rfl⟩
    refine (separatedUpTo_next rfl (argument_literal hfirst _ _) rfl rfl).trans ?_
    exact separatedUpTo_stop rfl

/-- A name and an argument behind it are a list of two if nothing follows them but a comma. -/
theorem argumentList?_argument {joint : Bool} {t : Token} {argument : ExprForm × List Token} :
    argumentList? (.literal text :: .punct ',' joint :: t :: ts) =
        some [(.literal text, [.literal text]), argument] ↔
      ∃ after, Grammar.argument
        (rulesUpTo (nesting (.literal text :: .punct ',' joint :: t :: ts))) ⟨t :: ts, [], []⟩ =
          some (argument, after) ∧ EndsArguments after.rest := by
  have hname : Stops true (.punct ',' joint :: t :: ts) := .punct (by decide) _ _ _
  constructor
  · intro hlist
    obtain ⟨trailing, c, hread, -⟩ := argumentList?_eq_some.mp hlist
    have hbehind := (separatedUpTo_next rfl (argument_literal hname _ _) rfl rfl).symm.trans hread
    rcases separatedUpTo_cases hbehind with ⟨hstop, -⟩ | ⟨-, a, after, hargument, hlast | hnext⟩
    · exact nomatch hstop
    · obtain ⟨hstop, hvalues, -⟩ := hlast
      obtain ⟨rfl, -⟩ := List.cons.inj (List.cons.inj hvalues).2
      exact ⟨_, argument_written hargument [], .inl (List.isEmpty_iff.mp hstop)⟩
    · obtain ⟨-, behind, hcomma, hmore⟩ := hnext
      obtain ⟨more, hvalues, hgo⟩ := separatedUpTo_prefix hmore
      obtain ⟨rfl, rfl⟩ := List.cons.inj (List.cons.inj hvalues).2
      obtain ⟨joint', hrest, -⟩ := operator_comma hcomma
      have hnil : behind.rest = [] := by
        by_contra hne
        exact hgo (List.isEmpty_eq_false_iff.mpr hne) rfl
      refine ⟨_, argument_written hargument [], .inr ⟨joint', ?_⟩⟩
      rw [← hnil, ← hrest]
  · rintro ⟨after, hargument, hnil | ⟨joint', hcomma⟩⟩
    · have hread := argument_written hargument [.punct ',' false]
      refine argumentList?_eq_some.mpr
        ⟨false, { after with written := [.punct ',' false] }, ?_, hnil⟩
      refine (separatedUpTo_next rfl (argument_literal hname _ _) rfl rfl).trans ?_
      exact separatedUpTo_last rfl hread (List.isEmpty_iff.mpr hnil)
    · obtain ⟨rest, own, found⟩ := after
      obtain rfl : rest = [.punct ',' joint'] := hcomma
      have hread := argument_written hargument [.punct ',' false]
      refine argumentList?_eq_some.mpr
        ⟨true, ⟨[], [.punct ',' false, .punct ',' false], found⟩, ?_, rfl⟩
      refine (separatedUpTo_next rfl (argument_literal hname _ _) rfl rfl).trans ?_
      refine (separatedUpTo_next rfl hread rfl rfl).trans ?_
      exact separatedUpTo_stop rfl

/-- An argument that is a string stands ahead, unless an attribute does. -/
theorem argument_string {tokens : List Token} {argument : ExprForm × List Token} {after : Cursor}
    {name : String}
    (h : Grammar.argument (rulesUpTo (nesting tokens)) ⟨tokens, [], []⟩ = some (argument, after))
    (hname : Marker.stringValue? argument.1 = some name) (hhash : atOperator "#" tokens = false) :
    ∃ text, Literal.stringValue? text = some name ∧ tokens = .literal text :: after.rest := by
  rw [argument_eq] at h
  obtain ⟨⟨form, between⟩, hexpr, hvalue⟩ := Option.map_eq_some_iff.mp h
  obtain ⟨rfl, rfl⟩ := Prod.mk.inj hvalue
  cases form with
  | literal text =>
    refine ⟨text, hname, ?_⟩
    rcases expr_literal hexpr with hahead | hread
    · exact absurd (hhash.symm.trans hahead) (by decide)
    · exact rest_of_literal hread (Option.isSome_iff_exists.mpr ⟨name, hname⟩)
  | _ => exact nomatch hname

/-- The attribute takes a list that is a name and at most one argument, without attributes in
front. -/
theorem takes_of_argumentList? {tokens : List Token} {first : ExprForm × List Token}
    {more : List (ExprForm × List Token)} {name : String}
    (hlist : argumentList? tokens = some (first :: more))
    (hname : Marker.stringValue? first.1 = some name) (hhash : atOperator "#" tokens = false)
    (hmore : more.length ≤ 1) :
    Takes tokens (.named name (more.head?.map Marker.argumentText)) := by
  obtain ⟨trailing, c, hread, -⟩ := argumentList?_eq_some.mp hlist
  rcases separatedUpTo_cases hread with ⟨-, hnil, -⟩ | ⟨-, a, after, hfirst, hlast | hnext⟩
  · exact nomatch hnil
  · obtain ⟨hstop, hvalues, -⟩ := hlast
    obtain ⟨rfl, rfl⟩ := List.cons.inj hvalues
    obtain ⟨text, hvalue, htokens⟩ := argument_string hfirst hname hhash
    rw [htokens]
    exact .name hvalue (.inl (List.isEmpty_iff.mp hstop))
  · obtain ⟨-, behind, hcomma, hread⟩ := hnext
    obtain ⟨more, hvalues, hgo⟩ := separatedUpTo_prefix hread
    obtain ⟨rfl, rfl⟩ := List.cons.inj hvalues
    obtain ⟨text, hvalue, htokens⟩ := argument_string hfirst hname hhash
    obtain ⟨joint, hrest, -⟩ := operator_comma hcomma
    rw [hrest] at htokens
    cases hbehind : behind.rest with
    | nil =>
      rw [hbehind] at htokens
      rcases separatedUpTo_cases hread with ⟨-, hvalues, -⟩ | ⟨hon, -⟩
      · obtain rfl : more = [] := (List.cons.inj hvalues).2
        rw [htokens]
        exact .name hvalue (.inr ⟨joint, rfl⟩)
      · rw [hbehind] at hon
        exact nomatch hon
    | cons t ts =>
      rw [hbehind] at htokens
      subst htokens
      obtain ⟨argument, rfl⟩ : ∃ argument, more = [argument] := by
        refine List.length_eq_one_iff.mp (le_antisymm hmore ?_)
        exact List.length_pos_iff.mpr (hgo (by rw [hbehind]; rfl))
      have hexact : Stops true (.punct ',' joint :: t :: ts) := .punct (by decide) _ _ _
      rw [argument_literal hexact] at hfirst
      obtain ⟨rfl, -⟩ := Prod.mk.inj (Option.some.inj hfirst)
      exact .argument hvalue hlist

/-- The attribute reads nothing, or a string and then what stands behind a name. -/
theorem readArguments_ok_iff {tokens : List Token} :
    (∃ c, readArguments rules ⟨tokens, [], []⟩ = some (.ok (), c)) ↔
      tokens = [] ∨ ∃ text name rest, tokens = .literal text :: rest ∧
        Literal.stringValue? text = some name ∧
          ∃ c, readAfterName rules ⟨rest, [.literal text], []⟩ = some (.ok (), c) := by
  constructor
  · rintro ⟨c, h⟩
    obtain ⟨held, between, hpeek, h⟩ := bind_eq_some.mp h
    obtain ⟨hheld, rfl⟩ := peek_eq_some hpeek
    cases held with
    | true => exact .inl (List.isEmpty_iff.mp hheld)
    | false =>
      obtain ⟨held, between, hpeek, h⟩ := bind_eq_some.mp h
      obtain ⟨hstring, rfl⟩ := peek_eq_some hpeek
      cases held with
      | false => exact nomatch (pure_eq_some.mp h).1
      | true =>
        obtain ⟨text, rest, rfl, hname⟩ : ∃ text rest, tokens = .literal text :: rest ∧
            Literal.isString text := by
          cases tokens with
          | nil => exact nomatch hstring
          | cons t rest =>
            cases t with
            | literal text => exact ⟨text, rest, rfl, hstring⟩
            | _ => exact nomatch hstring
        obtain ⟨name, hname⟩ := Option.isSome_iff_exists.mp hname
        exact .inr ⟨text, name, rest, rfl, hname, c, h⟩
  · rintro (rfl | ⟨text, name, rest, rfl, hname, c, h⟩)
    · exact ⟨_, rfl⟩
    · have hstring : atString (.literal text :: rest) :=
        Option.isSome_iff_exists.mpr ⟨name, hname⟩
      exact ⟨c, bind_eq_some.mpr ⟨false, _, rfl, bind_eq_some.mpr
        ⟨true, _, pure_eq_some.mpr ⟨hstring, rfl⟩, bind_eq_some.mpr ⟨(), _, rfl, h⟩⟩⟩⟩

/-- The attribute accepts just the arguments that it takes: none, a name, or a name and one
argument. -/
theorem checkArguments_ok_iff {tokens : List Token} :
    checkArguments tokens = .ok () ↔ ∃ marker, Takes tokens marker := by
  have hcheck : checkArguments tokens = .ok () ↔
      ∃ c, readArguments (rulesUpTo (nesting tokens)) ⟨tokens, [], []⟩ = some (.ok (), c) := by
    unfold checkArguments readFront?
    cases readArguments (rulesUpTo (nesting tokens)) ⟨tokens, [], []⟩ with
    | none => simp
    | some r => simp [Prod.ext_iff]
  rw [hcheck, readArguments_ok_iff]
  constructor
  · rintro (rfl | ⟨text, name, rest, rfl, hname, c, hread⟩)
    · exact ⟨_, .nothing⟩
    · rcases readAfterName_ok hread with hend | hargument
      · exact ⟨_, .name hname hend⟩
      · obtain ⟨joint, t, ts, argument, after, hrest, hargument, hend⟩ := hargument
        obtain rfl : rest = .punct ',' joint :: t :: ts := hrest
        exact ⟨_, .argument hname (argumentList?_argument.mpr ⟨after, hargument, hend⟩)⟩
  · rintro ⟨marker, htakes⟩
    cases htakes with
    | nothing => exact .inl rfl
    | name hname hend => exact .inr ⟨_, _, _, rfl, hname, readAfterName_of_ends hend⟩
    | argument hname hlist =>
      obtain ⟨after, hargument, hend⟩ := argumentList?_argument.mp hlist
      exact .inr ⟨_, _, _, rfl, hname, readAfterName_of_argument hargument hend⟩

end ServiceAttribute

namespace Marker

open Grammar ServiceAttribute

variable {tokens : List Token} {marker : Marker}

/-! ## What a marker reads -/

/-- Whether a marker takes the first argument for a name although the attribute refuses the
arguments: attributes stand in front of it, or more than one argument behind it. -/
def IsOverread (tokens : List Token) : Prop :=
  ∃ first more name, argumentList? tokens = some (first :: more) ∧
    stringValue? first.1 = some name ∧ (atOperator "#" tokens ∨ 1 < more.length)

/-- A list that begins with a string is named by it. -/
theorem ofArgs_named {first : ExprForm × List Token} {more : List (ExprForm × List Token)}
    {name : String} (hlist : argumentList? tokens = some (first :: more))
    (hname : stringValue? first.1 = some name) :
    ofArgs (.list tokens) = .named name (more.head?.map argumentText) := by
  simp only [ofArgs, hlist, ofArguments, hname]

/-- A marker reads the arguments that the attribute takes as they are meant. -/
theorem ofArgs_of_takes (h : Takes tokens marker) : ofArgs (.list tokens) = marker := by
  cases h with
  | nothing => rfl
  | name hname hend => exact ofArgs_named (argumentList?_name hend) hname
  | argument hname hlist => exact ofArgs_named hlist hname

/-- The attribute takes none of the arguments in which a marker reads too much. -/
theorem IsOverread.not_takes (h : IsOverread tokens) (htakes : Takes tokens marker) : False := by
  obtain ⟨first, more, name, hlist, -, hmore⟩ := h
  cases htakes with
  | nothing =>
    have hnil : argumentList? [] = some [] := rfl
    rw [hnil] at hlist
    exact nomatch hlist
  | name hname hend =>
    rw [argumentList?_name hend] at hlist
    obtain ⟨-, rfl⟩ := List.cons.inj (Option.some.inj hlist)
    rcases hmore with hhash | hlength
    · exact nomatch hhash
    · exact nomatch hlength
  | argument hname hargument =>
    rw [hargument] at hlist
    obtain ⟨-, rfl⟩ := List.cons.inj (Option.some.inj hlist)
    rcases hmore with hhash | hlength
    · exact nomatch hhash
    · exact absurd hlength (by simp)

/-- The text of arguments that are no name: the printed expressions of a list, and otherwise all
that was printed. -/
def otherText (tokens : List Token) : String :=
  match argumentList? tokens with
  | some arguments => ", ".intercalate (arguments.map fun argument => Token.printAll argument.2)
  | none => Token.printAll tokens

/-- Arguments that the attribute refuses are kept as text, unless a marker reads too much in
them. -/
theorem ofArgs_other (hrefused : ∀ marker, ¬ Takes tokens marker) (hover : ¬ IsOverread tokens) :
    ofArgs (.list tokens) = .other (otherText tokens) := by
  cases hlist : argumentList? tokens with
  | none => simp only [ofArgs, otherText, hlist]
  | some arguments =>
    cases arguments with
    | nil =>
      obtain rfl := eq_nil_of_argumentList? hlist
      exact absurd .nothing (hrefused .bare)
    | cons first more =>
      cases hname : stringValue? first.1 with
      | none => simp only [ofArgs, otherText, hlist, ofArguments, hname]
      | some name =>
        have hfew : ¬ (atOperator "#" tokens ∨ 1 < more.length) := fun hmany =>
          hover ⟨first, more, name, hlist, hname, hmany⟩
        push Not at hfew
        have htakes := takes_of_argumentList? hlist hname (Bool.not_eq_true _ ▸ hfew.1) hfew.2
        exact absurd htakes (hrefused _)

/-- The attribute takes no arguments, a name, or a name and one argument, and a marker reads these
as they are meant. Of the arguments that the attribute refuses it keeps the text, unless they begin
with a string that has attributes in front of it or more than one argument behind it: these it reads
as a name. -/
theorem ofArgs_list (tokens : List Token) :
    (checkArguments tokens = .ok () ↔ ∃ marker, Takes tokens marker) ∧
      (∀ marker, Takes tokens marker → ofArgs (.list tokens) = marker) ∧
      (IsOverread tokens → checkArguments tokens ≠ .ok () ∧
        ∃ name argument, ofArgs (.list tokens) = .named name argument) ∧
      (checkArguments tokens ≠ .ok () → ¬ IsOverread tokens →
        ofArgs (.list tokens) = .other (otherText tokens)) := by
  refine ⟨checkArguments_ok_iff, fun _ => ofArgs_of_takes, fun hover => ⟨fun hok => ?_, ?_⟩, ?_⟩
  · obtain ⟨marker, htakes⟩ := checkArguments_ok_iff.mp hok
    exact hover.not_takes htakes
  · obtain ⟨first, more, name, hlist, hname, -⟩ := hover
    exact ⟨name, _, ofArgs_named hlist hname⟩
  · intro hrefused hover
    rw [Ne, checkArguments_ok_iff, not_exists] at hrefused
    exact ofArgs_other hrefused hover

/-- The attribute takes a name and a number, which are read as such; it refuses a third argument,
which is dropped; and it refuses a number alone, which is kept as text. -/
theorem ofArgs_nameAndNumber :
    Takes [.literal "\"a\"", .punct ',' false, .literal "4"] (.named "a" (some "4")) ∧
      ofArgs (.list [.literal "\"a\"", .punct ',' false, .literal "4"]) = .named "a" (some "4") ∧
      IsOverread [.literal "\"a\"", .punct ',' false, .literal "1", .punct ',' false,
        .literal "2"] ∧
      checkArguments [.literal "\"a\"", .punct ',' false, .literal "1", .punct ',' false,
        .literal "2"] ≠ .ok () ∧
      checkArguments [.literal "42"] ≠ .ok () ∧ ¬ IsOverread [.literal "42"] ∧
      ofArgs (.list [.literal "42"]) = .other "42" := by
  have hlist : argumentList? [.literal "\"a\"", .punct ',' false, .literal "4"] =
      some [(.literal "\"a\"", [.literal "\"a\""]), (.literal "4", [.literal "4"])] := rfl
  have htakes : Takes [.literal "\"a\"", .punct ',' false, .literal "4"]
      (.named "a" (some "4")) := Takes.argument rfl hlist
  have hover : IsOverread [.literal "\"a\"", .punct ',' false, .literal "1", .punct ',' false,
      .literal "2"] := ⟨_, _, "a", rfl, rfl, .inr (by decide)⟩
  have hrefused : checkArguments [.literal "42"] ≠ .ok () := by
    rw [show checkArguments [.literal "42"] = .error .nameExpected from rfl]
    exact nofun
  have hnumber : ¬ IsOverread [.literal "42"] := by
    rintro ⟨first, more, name, hlist, hname, -⟩
    have hnumber : argumentList? [.literal "42"] = some [(.literal "42", [.literal "42"])] := rfl
    obtain ⟨rfl, -⟩ := List.cons.inj (Option.some.inj (hnumber.symm.trans hlist))
    exact nomatch hname
  exact ⟨htakes, (ofArgs_list _).2.1 _ htakes, hover, ((ofArgs_list _).2.2.1 hover).1, hrefused,
    hnumber, (ofArgs_list _).2.2.2 hrefused hnumber⟩

/-- A third argument is refused by the attribute, and a marker drops it. An attribute before the
name is refused, too. -/
theorem ofArgs_thirdArgument :
    checkArguments [.literal "\"a\"", .punct ',' false, .literal "1", .punct ',' false,
        .literal "2"] = .error .tooManyArguments ∧
      ofArgs (.list [.literal "\"a\"", .punct ',' false, .literal "1", .punct ',' false,
        .literal "2"]) = .named "a" (some "1") ∧
      checkArguments [.punct '#' false, .group .bracket [.ident "x"], .literal "\"a\""] =
        .error .nameExpected ∧
      ofArgs (.list [.punct '#' false, .group .bracket [.ident "x"], .literal "\"a\""]) =
        .named "a" none :=
  ⟨rfl, rfl, rfl, rfl⟩

end Marker

end ServiceDispatch
