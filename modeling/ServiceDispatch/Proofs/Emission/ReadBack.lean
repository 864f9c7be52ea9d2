import ServiceDispatch.Proofs.Emission.LineReading

/-!
# Reading a dispatch table back

The text of a dispatch table is read back as a program: one guard for each rule, in table order.
The head of the file is skipped up to the first guard, the lines of each guard give its
statement, and the last lines end the function.
-/

namespace ServiceDispatch.Emission

/-! ## Blocks -/

mutual

/-- The lines of a statement. -/
def Statement.lines : Statement → List Line
  | .guard type body => .guard type :: (linesOfAll body ++ [.close])
  | .ifPayload body => .ifPayload :: (linesOfAll body ++ [.close])
  | .downcast mutable type => [.downcast mutable type]
  | .construct call => [.construct call]
  | .returnService => [.returnService]
  | .returnNone => [.returnNone]

/-- The lines of statements. -/
def linesOfAll : List Statement → List Line
  | [] => []
  | statement :: rest => statement.lines ++ linesOfAll rest

end

mutual

/-- The lines of a statement give the statement. The first line of a block puts aside what is done,
and its last line takes it back. -/
theorem statementsOn_lines (statement : Statement) (done : List Statement)
    (blocks : List OpenBlock) (rest : List Line) :
    statementsOn done blocks (statement.lines ++ rest) =
      statementsOn (statement :: done) blocks rest := by
  cases statement with
  | guard type body =>
    rw [Statement.lines, List.cons_append, statementsOn, List.append_assoc,
      statementsOn_linesOfAll body]
    simp [statementsOn]
  | ifPayload body =>
    rw [Statement.lines, List.cons_append, statementsOn, List.append_assoc,
      statementsOn_linesOfAll body]
    simp [statementsOn]
  | _ => simp [Statement.lines, statementsOn]

/-- The lines of statements give the statements, which are collected from the last one to the first.
-/
theorem statementsOn_linesOfAll (statements : List Statement) (done : List Statement)
    (blocks : List OpenBlock) (rest : List Line) :
    statementsOn done blocks (linesOfAll statements ++ rest) =
      statementsOn (statements.reverse ++ done) blocks rest := by
  cases statements with
  | nil => rfl
  | cons statement statements =>
    rw [linesOfAll, List.append_assoc, statementsOn_lines statement,
      statementsOn_linesOfAll statements]
    simp

end

/-! ## The head of the file -/

/-- Inside a comment line everything up to the line break is skipped. -/
theorem skipTrivia_inside {line : List Char} (hline : '\n' ∉ line) (cs : List Char) :
    skipTrivia true (line ++ '\n' :: cs) = skipTrivia false cs := by
  induction line with
  | nil => rfl
  | cons c line ih =>
    obtain ⟨hc, hrest⟩ := not_or.mp fun h => hline (List.mem_cons.mpr h)
    have hgoesOn : (c != '\n') = true := bne_iff_ne.mpr fun h => hc h.symm
    rw [List.cons_append, skipTrivia, if_pos rfl, hgoesOn]
    exact ih hrest

/-- A comment line or an attribute line is skipped at every depth, with its line break. -/
theorem skipTrivia_renderLine (depth : Nat) {line : String} (hopens : opensTrivia line.toList)
    (hline : OneLine line) (cs : List Char) :
    skipTrivia false ((CodeBuffer.renderLine depth line).toList ++ cs) = skipTrivia false cs := by
  have hne : line ≠ "" := by
    rintro rfl
    exact nomatch hopens
  rw [CodeBuffer.toList_renderLine depth hne, List.append_assoc, List.append_assoc,
    skipTrivia_replicate, List.singleton_append]
  cases htext : line.toList with
  | nil => exact absurd (String.toList_eq_nil_iff.mp htext) hne
  | cons c body =>
    have hopens' : opensTrivia (c :: body ++ '\n' :: cs) = true := by
      rw [htext, opensTrivia, Bool.or_eq_true, List.isPrefixOf_iff_prefix,
        List.isPrefixOf_iff_prefix] at hopens
      rw [opensTrivia, Bool.or_eq_true, List.isPrefixOf_iff_prefix, List.isPrefixOf_iff_prefix]
      exact hopens.imp (·.trans (List.prefix_append _ _)) (·.trans (List.prefix_append _ _))
    have hbody : '\n' ∉ body := by
      intro hmem
      rw [OneLine, htext] at hline
      exact hline (List.mem_cons_of_mem _ hmem)
    rw [List.cons_append] at hopens' ⊢
    rw [skipTrivia, if_neg Bool.false_ne_true, if_pos hopens']
    exact skipTrivia_inside hbody cs

/-- What a text begins with, it begins with when more is appended. -/
theorem prefix_toList_append {words : List Char} {a : String} (ha : words <+: a.toList)
    (b : String) : words <+: (a ++ b).toList := by
  rw [String.toList_append]
  exact ha.trans (List.prefix_append _ _)

/-- The head of a block is found behind its indentation. -/
theorem isPrefixOf?_renderLine (depth : Nat) {head : String} {c : Char} {words : List Char}
    (hhead : c :: words <+: head.toList)
    (hskip : ∀ cs, skipTrivia false (c :: cs) = c :: cs) (cs : List Char) :
    List.isPrefixOf? head.toList
      (skipTrivia false ((CodeBuffer.renderLine depth head).toList ++ cs)) = some ('\n' :: cs) := by
  obtain ⟨rest, hrest⟩ := hhead
  have hne : head ≠ "" := by
    rintro rfl
    exact nomatch hrest
  rw [CodeBuffer.toList_renderLine depth hne, List.append_assoc, List.append_assoc,
    skipTrivia_replicate, ← hrest, List.cons_append, List.cons_append, hskip]
  exact isPrefixOf?_append (c :: (words ++ rest)) ('\n' :: cs)

/-- The head of the block begins with its keyword. -/
theorem prefix_implHead (settings : Settings) : "impl ".toList <+: (implHead settings).toList :=
  prefix_toList_append (prefix_toList_append List.prefix_rfl _) _

/-- The head of the function begins with its keywords. -/
theorem prefix_functionHead (settings : Settings) :
    "pub fn ".toList <+: (functionHead settings).toList := by
  rw [functionHead]
  iterate 7 refine prefix_toList_append ?_ _
  exact List.prefix_rfl

/-- A text that ends in two parts. -/
theorem append_eq_append_append (front : String) {a b c : String} (habc : c = a ++ b) :
    front ++ c = front ++ a ++ b := by
  rw [habc, String.append_assoc]

/-- The head of the function is written as it is read. -/
theorem functionHead_eq (settings : Settings) :
    functionHead settings = Wording.signature settings ++ " \x7b" :=
  append_eq_append_append _ (show "> \x7b" = ">" ++ " \x7b" from rfl)

/-! ## Programs -/

/-- The call of a construction from a payload. -/
def payloadCall (target : ItemPath) (how : PayloadConstruction) : Call :=
  ⟨target.text ++ "::" ++ how.constructor, how.context, some how.payload⟩

/-- The call of a construction from the context. -/
def contextCall (target : ItemPath) (how : ContextConstruction) : Call :=
  ⟨target.text ++ "::" ++ how.constructor, how.context, none⟩

/-- The branch of a guard for a present payload. -/
def payloadBranch (target : ItemPath) (how : PayloadConstruction) : Statement :=
  .ifPayload [.downcast (how.payload == .mutable) how.payloadType,
    .construct (payloadCall target how), .returnService]

/-- How a guard ends. -/
def contextBranch (target : ItemPath) : Option ContextConstruction → List Statement
  | some how => [.construct (contextCall target how), .returnService]
  | none => [.returnNone]

/-- The guard of a rule. -/
def guardOf (rule : DispatchRule) : Statement :=
  .guard rule.target.text ((rule.parameterized.map (payloadBranch rule.target)).toList ++
    contextBranch rule.target rule.contextOnly)

/-- The program of a table. -/
def programOf (table : DispatchTable) : List Statement := table.map guardOf

/-- The lines of statements one after the other are those of all of them. -/
theorem linesOfAll_append (front back : List Statement) :
    linesOfAll (front ++ back) = linesOfAll front ++ linesOfAll back := by
  induction front with
  | nil => rfl
  | cons statement front ih => simp [linesOfAll, ih]

/-- A text and the characters of five others. -/
theorem append_ofList₅ (front a b c d e : String) :
    front ++ a ++ b ++ c ++ d ++ e =
      front ++ String.ofList (a.toList ++ b.toList ++ (c.toList ++ d.toList) ++ e.toList) := by
  simp [String.append_assoc]

/-- A text and the characters of three others. -/
theorem append_ofList₃ (front a b c : String) :
    front ++ a ++ b ++ c = front ++ String.ofList (a.toList ++ b.toList ++ [] ++ c.toList) := by
  simp [String.append_assoc]

/-- The branch for a payload is written as its lines. -/
theorem PayloadConstruction.steps_eq (settings : Settings) (target : ItemPath)
    (how : PayloadConstruction) :
    how.steps target (Wording.serviceBox settings) =
      (payloadBranch target how).lines.map (Line.step settings) := by
  have hcall : how.call target = (payloadCall target how).callee ++
      String.ofList (argumentText how.context (some how.payload)) :=
    append_ofList₅ _ "(" _ ", " _ ")"
  rw [PayloadConstruction.steps, constructSteps, hcall]
  obtain ⟨constructor, context, payload, payloadType⟩ := how
  cases payload <;> rfl

/-- A construction from the context is written as its lines. -/
theorem ContextConstruction.steps_eq (settings : Settings) (target : ItemPath)
    (how : ContextConstruction) :
    constructSteps (Wording.serviceBox settings) (how.call target) =
      (linesOfAll (contextBranch target (some how))).map (Line.step settings) := by
  have hcall : how.call target = (contextCall target how).callee ++
      String.ofList (argumentText how.context none) :=
    append_ofList₃ _ "(" _ ")"
  rw [constructSteps, hcall]
  rfl

/-- A rule is written as the lines of its guard. -/
theorem DispatchRule.steps_eq (settings : Settings) (rule : DispatchRule) :
    rule.steps (Wording.serviceBox settings) =
      (guardOf rule).lines.map (Line.step settings) := by
  obtain ⟨target, contextOnly, parameterized⟩ := rule
  rw [DispatchRule.steps, guardOf, Statement.lines, linesOfAll_append]
  cases parameterized with
  | none =>
    cases contextOnly with
    | none => rfl
    | some how =>
      simp only [ContextConstruction.steps_eq, List.map_cons, List.map_append]
      rfl
  | some payload =>
    cases contextOnly with
    | none =>
      simp only [PayloadConstruction.steps_eq, List.map_cons, List.map_append]
      rfl
    | some how =>
      simp only [ContextConstruction.steps_eq, PayloadConstruction.steps_eq, List.map_cons,
        List.map_append]
      rfl

/-- The lines of a table inside both heads. -/
def linesOf (table : DispatchTable) : List Line :=
  linesOfAll (programOf table) ++ [.last, .close, .close]

/-- A table is written as its lines inside both heads. -/
theorem DispatchTable.steps_eq (settings : Settings) (table : DispatchTable) :
    table.steps settings =
      .line Wording.header :: .line Wording.rebuildHint :: .line "" ::
        .enter ("impl " ++ settings.enclosingType.text) ::
        .line "#[allow(unused_variables, clippy::needless_return)]" ::
        .enter (Wording.signature settings) :: (linesOf table).map (Line.step settings) := by
  have hrules : table.flatMap (·.steps (Wording.serviceBox settings)) =
      (linesOfAll (programOf table)).map (Line.step settings) := by
    induction table with
    | nil => rfl
    | cons rule table ih =>
      rw [List.flatMap_cons, ih, DispatchRule.steps_eq, ← List.map_append]
      rfl
  rw [DispatchTable.steps, hrules, linesOf, List.map_append]
  rfl

/-! ## Plain tables -/

/-- Whether the names in a rule have no line breaks. -/
def IsPlainRule (rule : DispatchRule) : Prop :=
  OneLine rule.target.text ∧ (∀ how ∈ rule.contextOnly, OneLine how.constructor) ∧
    ∀ how ∈ rule.parameterized, OneLine how.constructor ∧ OneLine how.payloadType

instance (rule : DispatchRule) : Decidable (IsPlainRule rule) :=
  inferInstanceAs (Decidable (_ ∧ _ ∧ _))

/-- A path has no line break if its parts have none. -/
theorem OneLine.member {target name : String} (htarget : OneLine target) (hname : OneLine name) :
    OneLine (target ++ "::" ++ name) := by
  simp [OneLine] at *
  exact ⟨htarget, hname⟩

/-- The lines of a plain rule are plain: the names in them have no line breaks. -/
theorem IsPlainRule.lines {rule : DispatchRule} (hrule : IsPlainRule rule) :
    ∀ line ∈ (guardOf rule).lines, line.IsPlain := by
  obtain ⟨target, contextOnly, parameterized⟩ := rule
  obtain ⟨htarget, hcontext, hpayload⟩ := hrule
  intro line hline
  rw [guardOf, Statement.lines, linesOfAll_append] at hline
  simp only [List.mem_cons, List.mem_append, List.not_mem_nil, or_false] at hline
  rcases hline with rfl | (hbranch | hend) | rfl
  · exact htarget
  · cases parameterized with
    | none => exact absurd hbranch List.not_mem_nil
    | some how =>
      obtain ⟨hname, htype⟩ := hpayload how rfl
      simp [payloadBranch, linesOfAll, Statement.lines] at hbranch
      rcases hbranch with rfl | rfl | rfl | rfl | rfl
      · trivial
      · exact htype
      · exact htarget.member hname
      · trivial
      · trivial
  · cases contextOnly with
    | none =>
      simp [contextBranch, linesOfAll, Statement.lines] at hend
      rw [hend]
      trivial
    | some how =>
      simp [contextBranch, linesOfAll, Statement.lines] at hend
      rcases hend with rfl | rfl
      · exact htarget.member (hcontext how rfl)
      · trivial
  · trivial

/-- The lines of a plain table are plain, as all of its rules are. -/
theorem isPlain_of_mem_linesOf {table : DispatchTable} (htable : ∀ rule ∈ table, IsPlainRule rule) :
    ∀ line ∈ linesOf table, line.IsPlain := by
  intro line hline
  rw [linesOf, List.mem_append] at hline
  rcases hline with hline | hline
  · induction table with
    | nil => exact absurd hline List.not_mem_nil
    | cons rule table ih =>
      have hlines : linesOfAll (programOf (rule :: table)) =
          (guardOf rule).lines ++ linesOfAll (programOf table) := rfl
      obtain ⟨hrule, hrest⟩ := List.forall_mem_cons.mp htable
      rw [hlines, List.mem_append] at hline
      exact hline.elim (hrule.lines line) (ih hrest)
  · simp only [List.mem_cons, List.not_mem_nil, or_false] at hline
    rcases hline with rfl | rfl | rfl <;> trivial

/-! ## The whole file -/

/-- A line break before the lines does not count, as it is skipped. -/
theorem readLines?_newline (settings : Settings) (n : Nat) (cs : List Char) :
    readLines? settings n ('\n' :: cs) = readLines? settings n cs := by
  cases n <;> rfl

/-- The file is six lines of head and the lines of the table. -/
theorem source_eq (settings : Settings) (table : DispatchTable) :
    table.source settings =
      "" ++ (CodeBuffer.renderLine 0 Wording.header ++
        (CodeBuffer.renderLine 0 Wording.rebuildHint ++ (CodeBuffer.renderLine 0 "" ++
          (CodeBuffer.renderLine 0 (implHead settings) ++
            (CodeBuffer.renderLine 1 "#[allow(unused_variables, clippy::needless_return)]" ++
              (CodeBuffer.renderLine 1 (functionHead settings) ++
                CodeBuffer.written 2 ((linesOf table).map (Line.step settings)))))))) := by
  rw [DispatchTable.source, CodeBuffer.output_applyAll, DispatchTable.steps_eq, functionHead_eq]
  rfl

/-- The characters of six lines and what follows. -/
theorem toList_append₆ (a b c d e f g : String) :
    ("" ++ (a ++ (b ++ (c ++ (d ++ (e ++ (f ++ g))))))).toList =
      a.toList ++ (b.toList ++ (c.toList ++ (d.toList ++ (e.toList ++
        (f.toList ++ g.toList))))) := by
  simp

/-- Both heads are found behind the comment lines and the attribute. -/
theorem afterHead?_source (settings : Settings) (table : DispatchTable) :
    afterHead? settings (table.source settings).toList =
      some ('\n' :: (CodeBuffer.written 2 ((linesOf table).map (Line.step settings))).toList) := by
  have hempty (cs : List Char) :
      skipTrivia false ((CodeBuffer.renderLine 0 "").toList ++ cs) = skipTrivia false cs := rfl
  have hbreak (cs : List Char) : skipTrivia false ('\n' :: cs) = skipTrivia false cs := rfl
  have himpl := isPrefixOf?_renderLine 0 (prefix_implHead settings) fun _ => rfl
  have hfunction := isPrefixOf?_renderLine 1 (prefix_functionHead settings) fun _ => rfl
  rw [source_eq, toList_append₆, afterHead?, skipTrivia_renderLine 0 rfl (of_decide_eq_true rfl),
    skipTrivia_renderLine 0 rfl (of_decide_eq_true rfl), hempty, himpl, Option.bind_eq_bind,
    Option.bind_some, hbreak, skipTrivia_renderLine 1 rfl (of_decide_eq_true rfl), hfunction]

/-- The text of a plain table is read back as its program. -/
theorem body?_source (settings : Settings) {table : DispatchTable}
    (htable : ∀ rule ∈ table, IsPlainRule rule) :
    body? settings (table.source settings) = some (programOf table) := by
  have hlength : (linesOf table).length ≤
      ('\n' ::
        (CodeBuffer.written 2 ((linesOf table).map (Line.step settings))).toList).length := by
    have hwritten := CodeBuffer.length_le_written 2 ((linesOf table).map (Line.step settings))
    rw [List.length_map] at hwritten
    rw [List.length_cons]
    omega
  have hlines := readLines?_written settings (isPlain_of_mem_linesOf htable) 2 _ hlength
  have hstatements : statementsOn [] [] (linesOf table) = some (programOf table) := by
    rw [linesOf, statementsOn_linesOfAll, List.append_nil]
    exact congrArg some (List.reverse_reverse _)
  simp only [body?, afterHead?_source, readLines?_newline, hlines, hstatements,
    Option.bind_eq_bind, Option.bind_some]

end ServiceDispatch.Emission
