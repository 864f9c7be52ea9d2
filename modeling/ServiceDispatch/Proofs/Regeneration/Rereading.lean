import ServiceDispatch.Proofs.Emission.LineReading
import ServiceDispatch.Proofs.Reading.Files
import ServiceDispatch.Proofs.Regeneration.Feeds

/-!
# Reading a written table

The text of a table whose paths and payload types can be read is read as one `impl` block with one
function, which constructs no service.
-/

namespace ServiceDispatch

open CodeBuffer (Step block written)
open Grammar
open Lexer (IsWord Reads)

/-! ## What can be read -/

namespace ItemPath

variable {p : ItemPath} {first : String} {names : List String}

/-- A legible path spells a type without arguments. -/
theorem IsLegible.spells (hp : p.IsLegible first names) : SpellsType p.text (p.written .none) := by
  have hspells := hp.spellsType spellsArgs_none
  rwa [String.append_empty] at hspells

/-- A legible path spells a type that ends where nothing goes on with it. -/
theorem IsLegible.spellsPath (hp : p.IsLegible first names) :
    SpellsPath p.text (p.written .none) := by
  rw [written, hp.segments]
  refine spellsPath_names hp.word.1 hp.word.2 hp.members hp.below ?_ spellsArgs_none
  rw [hp.text]
  simp

end ItemPath

/-- Whether the paths of the generated function can be read, and its name is an identifier. -/
structure Settings.IsLegible (settings : Settings) : Prop where
  context : ∃ first names, settings.contextType.IsLegible first names
  trait : ∃ first names, settings.serviceTrait.IsLegible first names
  enclosing : ∃ first names, settings.enclosingType.IsLegible first names
  function : IsIdentifier settings.functionName

/-- Whether the type of a rule, the names of its constructors and its payload type can be read. -/
structure DispatchRule.IsLegible (rule : DispatchRule) : Prop where
  target : ∃ first names, rule.target.IsLegible first names
  contextOnly : ∀ how, rule.contextOnly = some how → IsIdentifier how.constructor
  parameterized : ∀ how, rule.parameterized = some how →
    IsIdentifier how.constructor ∧ ∃ type, SpellsType how.payloadType type

/-! ## Operands -/

/-- A name spells an atom, as it is no keyword. -/
theorem spellsAtom_name {name : String} (hname : IsIdentifier name) : SpellsAtom name :=
  spellsAtom_path false name [] ⟨hname.1, .inr hname.2⟩ nofun
    (fun h => absurd (h ▸ by decide) hname.2) (by simp) spellsFish_none

/-- A name spells an operand with nothing behind it. -/
theorem spellsOperand_name {name : String} (hname : IsIdentifier name) : SpellsOperand name :=
  (spellsAtom_name hname).operand (List.forall_mem_nil SpellsSuffix) (by simp)

/-- A path from another crate spells an atom: it is rooted, and its names are identifiers. -/
theorem spellsAtom_rooted (first : String) (names : List String)
    (hnames : ∀ name ∈ first :: names, IsIdentifier name) {path : String}
    (hpath : path.toList = [':', ':'] ++
      (first.toList ++ names.flatMap fun name => ':' :: ':' :: name.toList)) : SpellsAtom path := by
  obtain ⟨hfirst, hothers⟩ := List.forall_mem_cons.mp hnames
  refine spellsAtom_path true first names ⟨hfirst.1, .inr hfirst.2⟩ hothers
    (fun h => absurd (h ▸ by decide) hfirst.2) ?_ spellsFish_none
  rw [hpath]
  simp

/-- The context is passed as an operand, in every passing mode. -/
theorem spellsOperand_contextArgument (how : Passing) :
    SpellsOperand (Wording.contextArgument how) := by
  have hname : SpellsOperand "context" := spellsOperand_name (by decide)
  have hshared : SpellsOperand "&*context" := hname.reborrow false
  cases how with
  | value =>
    have hclone : SpellsAtom "::std::clone::Clone::clone" :=
      spellsAtom_rooted "std" ["clone", "Clone", "clone"] (by decide) (by simp)
    exact hclone.operand (List.forall_mem_singleton.mpr hshared.arguments.suffix) (by decide)
  | shared => exact hshared
  | mutable => exact hname.reborrow true

/-- The payload is passed as an operand, in every passing mode. -/
theorem spellsOperand_payloadArgument (how : Passing) :
    SpellsOperand (Wording.payloadArgument how) := by
  have hname : SpellsOperand "parameter" := spellsOperand_name (by decide)
  cases how with
  | value => exact hname.deref
  | shared => exact hname.reborrow false
  | mutable => exact hname.reborrow true

/-- The call of a constructor spells an operand: the legible path of its type, its name and its
arguments. -/
theorem spellsOperand_call {target : ItemPath} {first : String} {names : List String}
    (htarget : target.IsLegible first names) {constructor args : String}
    (hconstructor : IsIdentifier constructor) (hargs : SpellsArguments args) :
    SpellsOperand (target.text ++ "::" ++ constructor ++ "(" ++ args ++ ")") := by
  have hnames : ∀ name ∈ names ++ [constructor], IsIdentifier name :=
    List.forall_mem_append.mpr ⟨htarget.members, List.forall_mem_singleton.mpr hconstructor⟩
  have hatom : SpellsAtom (target.text ++ "::" ++ constructor) := by
    refine spellsAtom_path target.isRooted first (names ++ [constructor]) htarget.word hnames
      (fun _ => by simp) ?_ spellsFish_none
    rw [String.toList_append, String.toList_append, htarget.text]
    simp
  exact hatom.operand (List.forall_mem_singleton.mpr hargs.suffix) (by simp)

/-! ## Rules -/

/-- What is constructed by a call is bound and returned. -/
theorem spellsStatements_constructSteps {box call : String} {type : Ty} (hbox : SpellsPath box type)
    (hcall : SpellsOperand call) : SpellsStatements (constructSteps box call) := by
  have hnew : SpellsAtom "::std::boxed::Box::new" :=
    spellsAtom_rooted "std" ["boxed", "Box", "new"] (by decide) (by simp)
  have hvalue : SpellsOperand ("::std::boxed::Box::new(" ++ call ++ ")") :=
    hnew.operand (List.forall_mem_singleton.mpr hcall.arguments.suffix) (by simp)
  have hbinding : SpellsStatement
      [.line ("let service: " ++ box ++ " = ::std::boxed::Box::new(" ++ call ++ ");")] :=
    spellsStatement_let false (by decide : IsIdentifier "service") (spellsAscription_type hbox)
      hvalue (by simp)
  have hsome : SpellsAtom Wording.some :=
    spellsAtom_rooted "std" ["option", "Option", "Some"] (by decide) (by decide)
  have hservice : SpellsOperand "service" := spellsOperand_name (by decide)
  have hsuffix : (Wording.some ++ "(service)").toList =
      Wording.some.toList ++ ["(" ++ "service" ++ ")"].flatMap String.toList := by decide
  have hreturn : SpellsStatement [.line ("return " ++ Wording.some ++ "(service);")] :=
    hsome.return (List.forall_mem_singleton.mpr hservice.arguments.suffix) hsuffix (by decide)
  exact hbinding.append (hreturn.append spellsStatements_nil)

/-- The branch for a payload is read as a statement. -/
theorem PayloadConstruction.spellsStatement_steps {how : PayloadConstruction} {target : ItemPath}
    {first : String} {names : List String} (htarget : target.IsLegible first names)
    (hconstructor : IsIdentifier how.constructor) {payload : Ty}
    (hpayload : SpellsType how.payloadType payload) {box : String} {type : Ty}
    (hbox : SpellsPath box type) : SpellsStatement (how.steps target box) := by
  have hparameter : SpellsOperand "parameter" := spellsOperand_name (by decide)
  have hcondition : SpellsCondition ("let " ++ Wording.some ++ "(parameter) = parameter") := by
    have hnames : ∀ name ∈ ["option", "Option", "Some"], IsIdentifier name := by decide
    have hpath : Wording.some.toList = [':', ':'] ++ ("std".toList ++
        ["option", "Option", "Some"].flatMap fun name => ':' :: ':' :: name.toList) := by decide
    exact spellsCondition_let (by decide : IsIdentifier "std") hnames hpath
      (by decide : IsIdentifier "parameter") hparameter (by decide)
  have hdowncast : SpellsOperand ("parameter.downcast::<" ++ how.payloadType ++ ">().ok()?") := by
    have hatom : SpellsAtom "parameter" := spellsAtom_name (by decide)
    have hsuffixes := List.forall_mem_cons.mpr
      ⟨spellsArguments_nil.genericMethod (by decide : IsIdentifier "downcast") hpayload,
        List.forall_mem_cons.mpr ⟨spellsArguments_nil.method (by decide : IsIdentifier "ok"),
          List.forall_mem_singleton.mpr spellsSuffix_question⟩⟩
    exact hatom.operand hsuffixes (by simp)
  have hbinding : SpellsStatement [.line (Wording.payloadBinding how.payload ++
      " = parameter.downcast::<" ++ how.payloadType ++ ">().ok()?;")] := by
    refine spellsStatement_let (how.payload = .mutable) (by decide : IsIdentifier "parameter")
      spellsAscription_none hdowncast ?_
    cases how.payload <;> simp [Wording.payloadBinding]
  have hcall : SpellsOperand (how.call target) := by
    have harguments := (spellsOperand_contextArgument how.context).arguments₂
      (spellsOperand_payloadArgument how.payload)
    have hall := spellsOperand_call htarget hconstructor harguments
    simpa only [PayloadConstruction.call, String.append_assoc] using hall
  have hbody := hbinding.append (spellsStatements_constructSteps hbox hcall)
  have hhead : ("if let " ++ Wording.some ++ "(parameter) = parameter").toList =
      "if".toList ++ ([' '] ++ ("let " ++ Wording.some ++ "(parameter) = parameter").toList) := by
    decide
  exact hcondition.statement hhead hbody

/-- The construction from the context alone is read as statements. -/
theorem ContextConstruction.spellsStatements_constructSteps {how : ContextConstruction}
    {target : ItemPath} {first : String} {names : List String}
    (htarget : target.IsLegible first names) (hconstructor : IsIdentifier how.constructor)
    {box : String} {type : Ty} (hbox : SpellsPath box type) :
    SpellsStatements (constructSteps box (how.call target)) :=
  ServiceDispatch.spellsStatements_constructSteps hbox (spellsOperand_call htarget hconstructor
    (spellsOperand_contextArgument how.context).arguments)

/-- The lines inside the guard of a rule. -/
def DispatchRule.guarded (rule : DispatchRule) (box : String) : List Step :=
  (rule.parameterized.elim [] fun how => how.steps rule.target box) ++
    rule.contextOnly.elim [.line ("return " ++ Wording.none ++ ";")] fun how =>
      constructSteps box (how.call rule.target)

/-- The lines of a rule are its guard around the lines inside. -/
theorem DispatchRule.steps_eq_block (rule : DispatchRule) (box : String) :
    rule.steps box = block (Wording.guardHead rule.target) (rule.guarded box) := by
  obtain ⟨target, contextOnly, parameterized⟩ := rule
  cases contextOnly <;> cases parameterized <;> rfl

/-- The guard of a rule is read as a statement. Its body ends with what the context alone gives. -/
theorem DispatchRule.IsLegible.spellsStatement {rule : DispatchRule} (hrule : rule.IsLegible)
    {box : String} {type : Ty} (hbox : SpellsPath box type) : SpellsStatement (rule.steps box) := by
  obtain ⟨first, names, htarget⟩ := hrule.target
  have hcondition : SpellsCondition
      ("type_id" ++ " == " ++ ("::std::any::TypeId::of::<" ++ rule.target.text ++ ">()")) := by
    have hatom : SpellsAtom ("::std::any::TypeId::of::<" ++ rule.target.text ++ ">") :=
      spellsAtom_path true "std" ["any", "TypeId", "of"] ⟨by decide, .inr (by decide)⟩ (by decide)
        (by decide) (by simp) (spellsFish_type htarget.spells)
    exact SpellsOperand.equal (spellsOperand_name (by decide))
      (hatom.operand (List.forall_mem_singleton.mpr spellsArguments_nil.suffix) (by simp))
  have hlast : SpellsStatements (rule.contextOnly.elim [.line ("return " ++ Wording.none ++ ";")]
      fun how => constructSteps box (how.call rule.target)) := by
    cases hcontext : rule.contextOnly with
    | some how =>
      exact how.spellsStatements_constructSteps htarget (hrule.contextOnly how hcontext) hbox
    | none =>
      have hnone : SpellsAtom Wording.none :=
        spellsAtom_rooted "std" ["option", "Option", "None"] (by decide) (by decide)
      have hsuffix : Wording.none.toList = Wording.none.toList ++ [].flatMap String.toList := by
        simp
      have hreturn : SpellsStatement [.line ("return " ++ Wording.none ++ ";")] :=
        hnone.return (List.forall_mem_nil SpellsSuffix) hsuffix (by decide)
      exact hreturn.append spellsStatements_nil
  have hbody : SpellsStatements (rule.guarded box) := by
    rw [guarded]
    cases hpayload : rule.parameterized with
    | some how =>
      obtain ⟨hconstructor, payload, hpayload⟩ := hrule.parameterized how hpayload
      exact (how.spellsStatement_steps htarget hconstructor hpayload hbox).append hlast
    | none => exact hlast
  have hhead : (Wording.guardHead rule.target).toList = "if".toList ++ ([' '] ++
      ("type_id" ++ " == " ++
        ("::std::any::TypeId::of::<" ++ rule.target.text ++ ">()")).toList) := by
    unfold Wording.guardHead
    simp
  rw [steps_eq_block]
  exact hcondition.statement hhead hbody

/-- The guards of rules, and nothing behind them, are read as the inside of a block. -/
theorem DispatchTable.spellsStatements {table : DispatchTable}
    (htable : ∀ rule ∈ table, rule.IsLegible) {box : String} {type : Ty}
    (hbox : SpellsPath box type) :
    SpellsStatements (table.flatMap (·.steps box) ++ [.line Wording.none]) := by
  induction table with
  | nil =>
    exact spellsStatements_path "std" ["option", "Option", "None"] (by decide) (by decide)
      (by decide)
  | cons rule rules ih =>
    obtain ⟨hrule, hothers⟩ := List.forall_mem_cons.mp htable
    rw [List.flatMap_cons, List.append_assoc]
    exact (hrule.spellsStatement hbox).append (ih hothers)

/-! ## The function -/

/-- A path from another crate with one argument spells a type. -/
theorem spellsPath_applied (first : String) (names : List String)
    (hnames : ∀ name ∈ first :: names, IsIdentifier name) {text whole : String} {arg : TyArg}
    (harg : Spells BeginsArg argAt text arg)
    (hwhole : whole.toList = [':', ':'] ++ (first.toList ++
      names.flatMap fun name => ':' :: ':' :: name.toList) ++ ('<' :: (text.toList ++ ['>']))) :
    SpellsPath whole
      (.path true (Segment.ofNames (.angled false [arg] false) (first :: names))) := by
  obtain ⟨hfirst, hothers⟩ := List.forall_mem_cons.mp hnames
  refine spellsPath_names hfirst.1 (.inr hfirst.2) hothers
    (fun h => absurd (h ▸ by decide) hfirst.2) ?_ (spellsArgs_angled (.cons harg .nil))
  rw [hwhole]
  simp

/-- A path from another crate that ends where nothing goes on with it spells a type. -/
theorem Grammar.SpellsPath.spellsType {text : String} {type : Ty} (htext : SpellsPath text type)
    {cs : List Char} (hstart : text.toList = ':' :: cs) : SpellsType text type :=
  ⟨htext.spells, start_of_eq_cons hstart (by decide)⟩

/-- The characters of the type of the boxed trait object. -/
theorem Wording.toList_serviceBox (settings : Settings) : (serviceBox settings).toList =
    "::std::boxed::Box<dyn ".toList ++ (settings.serviceTrait.text.toList ++ ['>']) := by
  unfold serviceBox
  simp

/-- The boxed trait object of a legible trait spells a type. -/
theorem ItemPath.IsLegible.spellsPath_box {trait : ItemPath} {first : String} {names : List String}
    (htrait : trait.IsLegible first names) {whole : String}
    (hwhole : whole.toList = "::std::boxed::Box<dyn ".toList ++ (trait.text.toList ++ ['>'])) :
    ∃ type, SpellsPath whole type := by
  have hdyn : Spells BeginsArg argAt ("dyn " ++ trait.text) _ :=
    spells_dyn htrait.word.1 htrait.word.2 htrait.members htrait.below htrait.text
  refine ⟨_, spellsPath_applied "std" ["boxed", "Box"] (by decide) hdyn ?_⟩
  rw [hwhole]
  simp

/-- What the attribute of the generated function allows. -/
def lintTokens : List Token :=
  [.ident "unused_variables", .punct ',' false, .ident "clippy", .punct ':' true, .punct ':' false,
    .ident "needless_return"]

/-- The arguments of the attribute are read as these tokens. -/
theorem reads_lintTokens (rest : List Char) :
    Reads "unused_variables, clippy::needless_return".toList (')' :: rest) lintTokens := by
  have hpath := (Reads.word (by decide : IsWord "clippy") (.cons (by decide) _)).append
    (Reads.members (by decide : ∀ name ∈ ["needless_return"], IsWord name)
      (.cons (by decide) rest : Lexer.EndsWord (')' :: rest)))
  have hcomma := Reads.separator (by decide : ',' ∈ Lexer.separators)
  exact (Reads.word (by decide : IsWord "unused_variables") (.cons (by decide) _)).append
    ((hcomma _).append ((Reads.space _).append hpath))

/-- The head of the generated function is read as a signature with an optional result. -/
theorem Settings.IsLegible.exists_spellsSignature {settings : Settings}
    (hsettings : settings.IsLegible) : ∃ text types arg,
      (Wording.signature settings).toList = "pub".toList ++ ([' '] ++ text.toList) ∧
        SpellsSignature text ⟨settings.functionName, false, false, false, false, types,
          some (.path true (Segment.ofNames (.angled false [arg] false)
            ["std", "option", "Option"]))⟩ := by
  obtain ⟨first, names, hcontext⟩ := hsettings.context
  obtain ⟨first', names', htrait⟩ := hsettings.trait
  have hid : SpellsType "::std::any::TypeId" (.path true
      (Segment.ofNames .none ["std", "any", "TypeId"])) :=
    spellsType_names (by decide) (.inr (by decide)) (by decide) (by decide) (by decide)
      spellsArgs_none
  have hany : Spells BeginsArg argAt ("dyn " ++ "::std::any::Any") (.type (.object
      (.ident "dyn" :: (Ty.path true (Segment.ofNames .none ["std", "any", "Any"])).tokens))) :=
    spells_dyn (by decide) (.inr (by decide)) (by decide) (by decide) (by decide)
  have hboxed : SpellsPath "::std::boxed::Box<dyn ::std::any::Any>" _ :=
    spellsPath_applied "std" ["boxed", "Box"] (by decide) hany (by decide)
  have hpayload : SpellsPath "::std::option::Option<::std::boxed::Box<dyn ::std::any::Any>>" _ :=
    spellsPath_applied "std" ["option", "Option"] (by decide)
      (hboxed.spellsType rfl).spells_arg (by decide)
  have hboxText := Wording.toList_serviceBox settings
  obtain ⟨box, hbox⟩ := htrait.spellsPath_box hboxText
  have hboxType : SpellsType (Wording.serviceBox settings) box := hbox.spellsType hboxText
  have hresult : SpellsPath ("::std::option::Option<" ++ Wording.serviceBox settings ++ ">") _ :=
    spellsPath_applied "std" ["option", "Option"] (by decide)
      hboxType.spells_arg (by simp)
  have hparams : List.Forall₂ SpellsParam ["type_id" ++ ": " ++ "::std::any::TypeId",
      "context" ++ ": " ++ ("&mut " ++ settings.contextType.text),
      "parameter" ++ ": " ++ "::std::option::Option<::std::boxed::Box<dyn ::std::any::Any>>"] _ :=
    .cons (hid.param (by decide)) (.cons ((spellsType_borrow hcontext.spells).param (by decide))
      (.cons ((hpayload.spellsType rfl).param (by decide)) .nil))
  refine ⟨_, _, _, ?_, spellsSignature hsettings.function hparams ?_ hresult⟩
  · unfold Wording.signature
    simp
  · simp

/-! ## The file -/

/-- The lines at the top of a generated file. -/
def topSteps : List Step := [.line Wording.header, .line Wording.rebuildHint, .line ""]

/-- The top of a generated file is read as no tokens. -/
theorem reads_topSteps (rest : List Char) : Reads (written 0 topSteps).toList rest [] := by
  have hwritten : (written 0 topSteps).toList = (written 0 [.line Wording.header]).toList ++
      ((written 0 [.line Wording.rebuildHint]).toList ++ (written 0 [.line ""]).toList) := by
    rw [← String.toList_append, ← String.toList_append]
    exact congrArg String.toList ((CodeBuffer.written_append 0 [.line Wording.header] _).trans
      (congrArg _ (CodeBuffer.written_append 0 [.line Wording.rebuildHint] [.line ""])))
  have hheader : Wording.header =
      "// " ++ "This file is auto-generated by ipcgen. Do not edit manually." := by decide
  have hhint : Wording.rebuildHint =
      "// " ++ "Rebuild or run `ipcgen generate` to regenerate." := by decide
  have hfirst (rest : List Char) : Reads (written 0 [.line Wording.header]).toList rest [] :=
    Reads.line (by decide) 0 (Reads.comment hheader (by decide) rest)
  have hsecond (rest : List Char) : Reads (written 0 [.line Wording.rebuildHint]).toList rest [] :=
    Reads.line (by decide) 0 (Reads.comment hhint (by decide) rest)
  rw [hwritten]
  exact (hfirst _).append ((hsecond _).append (Reads.emptyLine 0 rest))

/-- A generated file begins with a comment, and so with no mark that would be dropped. -/
theorem head?_topSteps : (written 0 topSteps).toList.head? = some '/' := by
  rw [topSteps, written, String.toList_append, Step.text,
    CodeBuffer.toList_renderLine _ (by decide)]
  rfl

namespace DispatchTable

variable {table : DispatchTable} {settings : Settings}

/-- The lines of a file are those of a block with one function. -/
theorem steps_eq_block (table : DispatchTable) (settings : Settings) : table.steps settings =
    topSteps ++ block ("impl " ++ settings.enclosingType.text)
      (.line "#[allow(unused_variables, clippy::needless_return)]" ::
        block (Wording.signature settings)
          (table.flatMap (·.steps (Wording.serviceBox settings)) ++ [.line Wording.none])) := by
  simp only [steps, topSteps, block, List.append_assoc, List.cons_append, List.nil_append]

/-- The text of a table is read as one block, in which no function constructs a type: the only one
returns a path with arguments. -/
theorem exists_ofFile?_source (hsettings : settings.IsLegible)
    (htable : ∀ rule ∈ table, rule.IsLegible) : ∃ decl : ImplDecl,
      Item.ofFile? (table.source settings) = some [.impl decl] ∧ Item.IsSilent (.impl decl) := by
  obtain ⟨first, names, henclosing⟩ := hsettings.enclosing
  obtain ⟨first', names', htrait⟩ := hsettings.trait
  obtain ⟨box, hbox⟩ := htrait.spellsPath_box (Wording.toList_serviceBox settings)
  obtain ⟨text, types, arg, hhead, hsignature⟩ := hsettings.exists_spellsSignature
  have hline : "#[allow(unused_variables, clippy::needless_return)]".toList = ['#'] ++ ('[' ::
      ("allow".toList ++ '(' :: ("unused_variables, clippy::needless_return".toList ++ [')']) ++
        [']'])) := by decide
  have hfunction := hsignature.function hhead (spellsStatements htable hbox)
    (by decide : IsIdentifier "allow") reads_lintTokens (by decide) hline
  have hbalanced : CodeBuffer.IsBalanced topSteps := fun _ => rfl
  have hfile := hfunction.ofFile? henclosing.spellsPath hbalanced reads_topSteps head?_topSteps
  rw [← steps_eq_block, ← source_eq] at hfile
  refine ⟨_, hfile, _, rfl, fun method hmethod terminal scope dispatcher => ?_⟩
  obtain rfl := List.mem_singleton.mp hmethod
  rw [MethodDecl.isConstructor]
  exact Bool.and_false _

end DispatchTable

end ServiceDispatch
