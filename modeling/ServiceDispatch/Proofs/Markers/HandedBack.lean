import ServiceDispatch.Proofs.Markers.Arguments
import ServiceDispatch.Proofs.Printing.Items
import ServiceDispatch.Text.Escaped

/-!
# What the service attribute expands to

The attribute hands a struct or an enum back if it takes its arguments: with settled tokens the
item is left as it is. In every other case it expands to the report of an error, of which the
arguments have the first choice.
-/

namespace ServiceDispatch.ServiceAttribute

open Grammar

/-! ## Expansion -/

/-- An invocation that makes the compiler report a text. -/
def report (text : String) : List Token :=
  Token.operator "::" ++ .ident "core" :: Token.operator "::" ++
    [.ident "compile_error", .punct '!' false, .group .brace [.literal (Text.quoted text.toList)]]

/-- What stands in the end in place of the attribute and its item. For arguments and items that are
not well formed the report has the text of their parser. -/
def expansion (argumentsText itemText : List Token → String) (arguments item : List Token) :
    List Token :=
  match checkArguments arguments with
  | .error e => report (e.message?.getD (argumentsText arguments))
  | .ok () =>
    match apply arguments item with
    | .ok tokens => tokens
    | .error e => report (e.message?.getD (itemText item))

variable {argumentsText itemText : List Token → String} {arguments item tokens : List Token}
  {e : ServiceAttributeError}

/-- With arguments that are taken the result depends on the item alone. -/
theorem apply_of_taken (htaken : checkArguments arguments = .ok ()) (item : List Token) :
    apply arguments item =
      match Item.ofTokens? item with
      | some (.type _, tokens) => .ok tokens
      | some _ => .error .notAType
      | none => .error .malformed := by
  rw [apply, htaken]
  rfl

/-- Tokens are handed back if the arguments are taken and the item is a struct or an enum. -/
theorem apply_ok_iff : apply arguments item = .ok tokens ↔
    (∃ marker, Takes arguments marker) ∧
      ∃ decl, Item.ofTokens? item = some (.type decl, tokens) := by
  rw [← checkArguments_ok_iff]
  cases hcheck : checkArguments arguments with
  | error e =>
    have hrefused : apply arguments item = .error e := by
      rw [apply, hcheck]
      rfl
    rw [hrefused]
    exact ⟨nofun, fun h => nomatch h.1⟩
  | ok taken =>
    rw [apply_of_taken hcheck]
    constructor
    · intro h
      split at h
      case h_1 decl own hitem =>
        obtain rfl := Except.ok.inj h
        exact ⟨rfl, decl, hitem⟩
      case h_2 => exact nomatch h
      case h_3 => exact nomatch h
    · rintro ⟨-, decl, hitem⟩
      rw [hitem]

/-- What is handed back stands in place of the attribute and its item. -/
theorem expansion_of_ok (h : apply arguments item = .ok tokens) :
    expansion argumentsText itemText arguments item = tokens := by
  have htaken : checkArguments arguments = .ok () :=
    checkArguments_ok_iff.mpr (apply_ok_iff.mp h).1
  rw [expansion, htaken]
  dsimp only
  rw [h]

/-- Arguments that are refused are reported, whatever the item is. -/
theorem expansion_of_refused (h : checkArguments arguments = .error e) (item : List Token) :
    expansion argumentsText itemText arguments item =
      report (e.message?.getD (argumentsText arguments)) := by
  rw [expansion, h]

/-- An item that is refused is reported if the arguments are taken. -/
theorem expansion_of_taken (htaken : checkArguments arguments = .ok ())
    (h : apply arguments item = .error e) :
    expansion argumentsText itemText arguments item = report (e.message?.getD (itemText item)) := by
  rw [expansion, htaken]
  dsimp only
  rw [h]

/-- What the attribute makes of an item, case by case. It hands back tokens if and only if it takes
its arguments and the item is a struct or an enum, and these are the tokens of the item, up to
spacing, if these are settled. Otherwise it expands to one report: of the arguments, whatever the
item is, and of the item only if the arguments are taken. -/
theorem expansion_handsBack (argumentsText itemText : List Token → String)
    (arguments item : List Token) :
    (∀ tokens, apply arguments item = .ok tokens ↔
      (∃ marker, Takes arguments marker) ∧
        ∃ decl, Item.ofTokens? item = some (.type decl, tokens)) ∧
    (∀ tokens, apply arguments item = .ok tokens →
      expansion argumentsText itemText arguments item = tokens ∧
        (isSettled item → Token.bareAll tokens = Token.bareAll item)) ∧
    (∀ e, checkArguments arguments = .error e → ∀ item',
      expansion argumentsText itemText arguments item' =
        report (e.message?.getD (argumentsText arguments))) ∧
    (checkArguments arguments = .ok () →
      (Item.ofTokens? item = none →
        expansion argumentsText itemText arguments item = report (itemText item)) ∧
      ∀ other tokens, Item.ofTokens? item = some (other, tokens) → (∀ decl, other ≠ .type decl) →
        expansion argumentsText itemText arguments item =
          report "#[service] can only be applied to a struct or enum") := by
  refine ⟨fun tokens => apply_ok_iff, fun tokens h => ⟨expansion_of_ok h, fun hsettled => ?_⟩,
    fun e => expansion_of_refused,
    fun htaken => ⟨fun hnone => ?_, fun other tokens hother hnot => ?_⟩⟩
  · obtain ⟨-, decl, hitem⟩ := apply_ok_iff.mp h
    exact bareAll_of_ofTokens hitem hsettled
  · have herror : apply arguments item = .error .malformed := by
      rw [apply_of_taken htaken, hnone]
    rw [expansion_of_taken htaken herror]
    rfl
  · have herror : apply arguments item = .error .notAType := by
      rw [apply_of_taken htaken, hother]
      cases other with
      | type decl => exact absurd rfl (hnot decl)
      | _ => rfl
    rw [expansion_of_taken htaken herror]
    rfl

/-- A struct with a lifetime is left as it is up to spacing. In front of it a number is reported,
and behind a name a module is reported and so is a struct that ends too early. -/
theorem expansion_borrowed :
    (∃ item tokens, item = [.ident "struct", .ident "S", .punct '<' true, .punct '\'' true,
        .ident "a", .punct '>' false,
        .group .paren [.punct '&' true, .punct '\'' true, .ident "a", .ident "str"],
        .punct ';' false] ∧
      apply [.literal "\"a\""] item = .ok tokens ∧
      expansion (fun _ => "") (fun _ => "") [.literal "\"a\""] item = tokens ∧
      Token.bareAll tokens = Token.bareAll item ∧
      expansion (fun _ => "") (fun _ => "") [.literal "42"] item =
        report "expected a service name string, e.g. #[service(\"acc:u0\")]") ∧
    expansion (fun _ => "") (fun _ => "") [.literal "\"a\""]
        [.ident "mod", .ident "m", .punct ';' false] =
      report "#[service] can only be applied to a struct or enum" ∧
    expansion (fun _ => "") (fun _ => "unexpected end of input") [.literal "\"a\""]
        [.ident "struct", .ident "S"] = report "unexpected end of input" := by
  refine ⟨⟨_, _, rfl, rfl, ?_, ?_, ?_⟩, ?_, ?_⟩
  · exact ((expansion_handsBack _ _ _ _).2.1 _ rfl).1
  · exact ((expansion_handsBack (fun _ => "") (fun _ => "") [.literal "\"a\""] _).2.1 _ rfl).2
      (by decide)
  · exact (expansion_handsBack _ _ _ []).2.2.1 .nameExpected rfl _
  · exact ((expansion_handsBack _ _ _ _).2.2.2 rfl).2 (.module _ none) _ rfl nofun
  · exact ((expansion_handsBack _ _ _ _).2.2.2 rfl).1 rfl

/-- A clause without conditions is lost, although the attribute hands the struct back and its
arguments are taken. -/
theorem apply_emptyClause :
    apply [] [.ident "struct", .ident "S", .ident "where", .punct ';' false] =
        .ok [.ident "struct", .ident "S", .punct ';' false] ∧
      Token.bareAll [.ident "struct", .ident "S", .punct ';' false] ≠
        Token.bareAll [.ident "struct", .ident "S", .ident "where", .punct ';' false] :=
  ⟨rfl, nofun⟩

end ServiceDispatch.ServiceAttribute
