import ServiceDispatch.DispatchSource
import ServiceDispatch.Proofs.Emission.Reading

/-!
# Reading lines back

A step of the buffer writes one line. Whatever depth it stands at, and whatever names without a
line break stand in it, the line is read as the one it was written for: its first words tell its
form, and its last words end the variable part.
-/

namespace ServiceDispatch

namespace CodeBuffer

/-- The text of a step, without indentation and line break. -/
def Step.text : Step → String
  | .line text => text
  | .enter header => header ++ " \x7b"
  | .leave => "\x7d"

/-- The depth at which the line of a step stands. -/
def Step.depth : Nat → Step → Nat
  | depth, .leave => depth - 1
  | depth, _ => depth

/-- The depth after a step. -/
def Step.depthAfter : Nat → Step → Nat
  | depth, .line _ => depth
  | depth, .enter _ => depth + 1
  | depth, .leave => depth - 1

/-- The text that steps write, beginning at a depth. -/
def written : Nat → List Step → String
  | _, [] => ""
  | depth, step :: rest =>
    renderLine (step.depth depth) step.text ++ written (step.depthAfter depth) rest

/-- A step writes its line and sets the depth. A brace that closes a scope stands at the depth
behind it. -/
theorem apply_eq (b : CodeBuffer) (step : Step) :
    b.apply step = ⟨b.output ++ renderLine (step.depth b.depth) step.text,
      step.depthAfter b.depth⟩ := by
  cases step <;> rfl

/-- Steps append their text to the output, which depends on the depth alone. -/
theorem output_applyAll (b : CodeBuffer) (steps : List Step) :
    (b.applyAll steps).output = b.output ++ written b.depth steps := by
  induction steps generalizing b with
  | nil => simp [applyAll, written]
  | cons step rest ih =>
    have hrest := ih (b.apply step)
    rw [apply_eq] at hrest
    rw [applyAll, List.foldl_cons, apply_eq]
    rw [applyAll] at hrest
    rw [hrest, written, String.append_assoc]

/-- The texts that steps write one after the other, beginning at a depth. -/
def writtenTexts : Nat → List Step → List String
  | _, [] => []
  | depth, step :: rest =>
    (if step.text = "" then "" else indent (step.depth depth)) :: step.text :: "\n" ::
      writtenTexts (step.depthAfter depth) rest

/-- The characters of written steps are those of their texts. -/
theorem toList_written (depth : Nat) (steps : List Step) :
    (written depth steps).toList = (writtenTexts depth steps).flatMap String.toList := by
  induction steps generalizing depth with
  | nil => rfl
  | cons step rest ih =>
    rw [written, String.toList_append, ih, writtenTexts, renderLine]
    split <;> simp [*]

/-- Every step writes at least its line break. -/
theorem length_le_written (depth : Nat) (steps : List Step) :
    steps.length ≤ (written depth steps).toList.length := by
  induction steps generalizing depth with
  | nil => exact Nat.zero_le _
  | cons step rest ih =>
    have hline : 1 ≤ (renderLine (step.depth depth) step.text).toList.length := by
      rw [renderLine]
      split
      · simp
      · rw [String.toList_append, List.length_append]
        exact Nat.le_add_left _ _
    have hrest := ih (step.depthAfter depth)
    rw [written, String.toList_append, List.length_append, List.length_cons]
    omega

/-- A line that is not empty stands between its indentation and a line break. -/
theorem toList_renderLine (depth : Nat) {line : String} (hline : line ≠ "") :
    (renderLine depth line).toList =
      List.replicate (4 * depth) ' ' ++ line.toList ++ ['\n'] := by
  simp [renderLine, hline, indent]

end CodeBuffer

/-- The text of a table is what its steps write. -/
theorem DispatchTable.source_eq (table : DispatchTable) (settings : Settings) :
    table.source settings = CodeBuffer.written 0 (table.steps settings) := by
  rw [source, CodeBuffer.output_applyAll]
  exact String.empty_append

namespace Emission

open CodeBuffer (Step)

/-! ## Texts with fixed ends -/

/-- The front of a text is found at its front. -/
theorem isPrefixOf?_append (front rest : List Char) :
    List.isPrefixOf? front (front ++ rest) = some rest := by
  induction front with
  | nil => rfl
  | cons c front ih => exact (if_pos (beq_self_eq_true c)).trans ih

/-- The back of a text is found at its back. -/
theorem isSuffixOf?_append (front back : List Char) :
    List.isSuffixOf? back (front ++ back) = some front := by
  show (List.isPrefixOf? back.reverse (front ++ back).reverse).map List.reverse = some front
  rw [List.reverse_append, isPrefixOf?_append, Option.map_some, List.reverse_reverse]

/-- A line is cut off at its line break, if it has none in itself. -/
theorem cutLine_append {line : List Char} (hline : '\n' ∉ line) (rest : List Char) :
    cutLine (line ++ '\n' :: rest) = (line, rest) := by
  have hall : ∀ c ∈ line, decide (c ≠ '\n') = true := by
    intro c hc
    exact decide_eq_true fun heq => hline (heq ▸ hc)
  rw [cutLine, List.takeWhile_append_of_pos hall, List.dropWhile_append_of_pos hall]
  simp

/-- Indentation is skipped, however deep it is. -/
theorem skipTrivia_replicate (n : Nat) (cs : List Char) :
    skipTrivia false (List.replicate n ' ' ++ cs) = skipTrivia false cs := by
  induction n with
  | zero => rfl
  | succ n ih => exact ih

/-! ## Calls -/

/-- The text of the arguments of a call. -/
def argumentText (context : Passing) (payload : Option Passing) : List Char :=
  "(".toList ++ (Wording.contextArgument context).toList ++
    (payload.elim [] fun passing => ", ".toList ++ (Wording.payloadArgument passing).toList) ++
    ")".toList

/-- Arguments are found from the back. No words for arguments are the end of other ones, and all
words are compared from the closing bracket on, so no other arguments fit, whatever stands before
them. -/
theorem argumentsFromBack?_argumentText (context : Passing) (payload : Option Passing)
    (rest : List Char) :
    argumentsFromBack? ((argumentText context payload).reverse ++ rest) =
      some (rest, context, payload) := by
  rcases payload with _ | passing
  · cases context <;> rfl
  · cases context <;> cases passing <;> rfl

/-- A call reads as itself: its arguments are found from the back, and the rest is its callee. -/
theorem ofText?_callee_append (call : Call) :
    Call.ofText? (call.callee.toList ++ argumentText call.context call.payload) = some call := by
  rw [Call.ofText?, List.reverse_append, argumentsFromBack?_argumentText]
  simp

/-! ## Lines -/

/-- The step that writes a line. -/
def Line.step (settings : Settings) : Line → Step
  | .guard type => .enter (Wording.guardHead ⟨type⟩)
  | .ifPayload => .enter ("if let " ++ Wording.some ++ "(parameter) = parameter")
  | .downcast mutable type =>
    .line ((if mutable then "let mut parameter" else "let parameter") ++
      " = parameter.downcast::<" ++ type ++ ">().ok()?;")
  | .construct call =>
    .line ("let service: " ++ Wording.serviceBox settings ++ " = ::std::boxed::Box::new(" ++
      (call.callee ++ String.ofList (argumentText call.context call.payload)) ++ ");")
  | .returnService => .line ("return " ++ Wording.some ++ "(service);")
  | .returnNone => .line ("return " ++ Wording.none ++ ";")
  | .close => .leave
  | .last => .line Wording.none

/-- Whether a text has no line break. -/
def OneLine (text : String) : Prop := '\n' ∉ text.toList

instance (text : String) : Decidable (OneLine text) := inferInstanceAs (Decidable (_ ∉ _))

/-- Whether the name in a line has no line break. -/
def Line.IsPlain : Line → Prop
  | .guard type => OneLine type
  | .downcast _ type => OneLine type
  | .construct call => OneLine call.callee
  | _ => True

/-- The form of a line. -/
def Line.form (settings : Settings) : Line → LineForm
  | .guard _ => .guard
  | .ifPayload => .ifPayload
  | .downcast mutable _ => .downcast mutable
  | .construct _ => .construct settings
  | .returnService => .returnService
  | .returnNone => .returnNone
  | .close => .close
  | .last => .last

/-- The variable part of a line. -/
def Line.between : Line → List Char
  | .guard type => type.toList
  | .downcast _ type => type.toList
  | .construct call => call.callee.toList ++ argumentText call.context call.payload
  | _ => []

/-- The text of three parts, cut after the first one. -/
theorem toList_append₃ (a b c : String) (cs : List Char) :
    (a ++ b ++ c).toList ++ cs = a.toList ++ (b.toList ++ c.toList ++ cs) := by
  simp

/-- The text of four parts, cut after the first one. -/
theorem toList_append₄ (a b c d : String) (cs : List Char) :
    (a ++ b ++ c ++ d).toList ++ cs = a.toList ++ (b.toList ++ (c.toList ++ d.toList) ++ cs) := by
  simp

/-- The text of a call between two texts of which the first has three parts. -/
theorem toList_append_call (a b c d : String) (args e cs : List Char) :
    (a ++ b ++ c ++ (d ++ String.ofList args) ++ String.ofList e).toList ++ cs =
      a.toList ++ b.toList ++ c.toList ++ (d.toList ++ args ++ e ++ cs) := by
  simp

/-- The text of a line is that of its form around its variable part. -/
theorem Line.toList_text (settings : Settings) (line : Line) (cs : List Char) :
    (line.step settings).text.toList ++ cs =
      (line.form settings).start ++ (line.between ++ (line.form settings).finish ++ cs) := by
  cases line with
  | guard type => exact toList_append₄ _ _ _ _ _
  | downcast mutable type => cases mutable <;> exact toList_append₃ _ _ _ _
  | construct call => exact toList_append_call _ _ _ _ _ ");".toList _
  | _ => rfl

/-- The variable part of a line makes the line, by the form that the line has. -/
theorem Line.line?_between (settings : Settings) (line : Line) :
    (line.form settings).line? line.between = some line := by
  cases line with
  | guard type => exact congrArg (some <| Line.guard ·) String.ofList_toList
  | downcast mutable type => exact congrArg (some <| Line.downcast mutable ·) String.ofList_toList
  | construct call => exact congrArg (Option.map _) (ofText?_callee_append call)
  | _ => rfl

/-- The words for arguments have no line break, in every passing mode. -/
theorem newline_not_mem_argumentText (context : Passing) (payload : Option Passing) :
    '\n' ∉ argumentText context payload := by
  rcases payload with _ | passing
  · cases context <;> decide
  · cases context <;> cases passing <;> decide

/-- The variable part of a plain line has no line break. -/
theorem Line.IsPlain.newline_not_mem {line : Line} (hline : line.IsPlain) :
    '\n' ∉ line.between := by
  cases line with
  | guard type => exact hline
  | downcast mutable type => exact hline
  | construct call =>
    rw [Line.between, List.mem_append]
    exact not_or.mpr ⟨hline, newline_not_mem_argumentText _ _⟩
  | _ => exact List.not_mem_nil

/-- The last words of a form have no line break. -/
theorem LineForm.newline_not_mem (settings : Settings) :
    ∀ form ∈ LineForm.all settings, '\n' ∉ form.finish := by
  simp only [LineForm.all, List.forall_mem_cons]
  simp only [List.not_mem_nil, false_imp_iff, implies_true, and_true]
  refine ⟨?_, ?_, ?_, ?_, ?_, ?_, ?_, ?_, ?_⟩
  all_goals exact of_decide_eq_true rfl

/-- No form begins with anything that is skipped, neither a space nor a comment nor an attribute. -/
theorem LineForm.skipTrivia_start (settings : Settings) :
    ∀ form ∈ LineForm.all settings, ∀ cs, ∃ c rest,
      skipTrivia false (form.start ++ cs) = c :: rest ∧ form.start ++ cs = c :: rest := by
  simp only [LineForm.all, List.forall_mem_cons]
  simp only [List.not_mem_nil, false_imp_iff, implies_true, and_true]
  refine ⟨?_, ?_, ?_, ?_, ?_, ?_, ?_, ?_, ?_⟩
  all_goals exact fun _ => ⟨_, _, rfl, rfl⟩

/-- No form starts like a later one: two forms differ in their fixed words, before any name of the
settings. -/
theorem LineForm.pairwise_all (settings : Settings) :
    (LineForm.all settings).Pairwise fun other form =>
      ∀ cs, List.isPrefixOf? other.start (form.start ++ cs) = none := by
  simp only [LineForm.all, List.pairwise_cons, List.forall_mem_cons]
  simp only [List.not_mem_nil, false_imp_iff, implies_true, List.Pairwise.nil, and_true]
  refine ⟨⟨?_, ?_, ?_, ?_, ?_, ?_, ?_, ?_⟩, ⟨?_, ?_, ?_, ?_, ?_, ?_, ?_⟩, ⟨?_, ?_, ?_, ?_, ?_, ?_⟩,
    ⟨?_, ?_, ?_, ?_, ?_⟩, ⟨?_, ?_, ?_, ?_⟩, ⟨?_, ?_, ?_⟩, ⟨?_, ?_⟩, ?_⟩
  all_goals exact fun _ => rfl

/-- A form reads what stands between its words, up to the line break behind them. -/
theorem LineForm.read?_append {form : LineForm} {between : List Char}
    (hbetween : '\n' ∉ between) (hfinish : '\n' ∉ form.finish) (rest : List Char) :
    form.read? (form.start ++ (between ++ form.finish ++ '\n' :: rest)) =
      (form.line? between).map (·, rest) := by
  have hline : '\n' ∉ between ++ form.finish := by
    rw [List.mem_append]
    exact not_or.mpr ⟨hbetween, hfinish⟩
  simp only [LineForm.read?, isPrefixOf?_append, cutLine_append hline, isSuffixOf?_append,
    Option.bind_eq_bind, Option.bind_some]
  cases form.line? between <;> rfl

/-- The form of a line is one of the forms that are read. -/
theorem Line.form_mem (settings : Settings) (line : Line) :
    line.form settings ∈ LineForm.all settings := by
  cases line with
  | downcast mutable type => cases mutable <;> simp [LineForm.all, Line.form]
  | _ => simp [LineForm.all, Line.form]

/-- The text of a line reads as the line: of all forms only its own starts like it. -/
theorem readLine?_text (settings : Settings) {line : Line} (hline : line.IsPlain)
    (rest : List Char) :
    readLine? settings ((line.step settings).text.toList ++ '\n' :: rest) = some (line, rest) := by
  have hform := line.form_mem settings
  obtain ⟨before, after, hall⟩ := List.append_of_mem hform
  have hpairwise := LineForm.pairwise_all settings
  rw [hall, List.pairwise_append] at hpairwise
  have hnone : ∀ other ∈ before, ∀ cs, other.read? ((line.form settings).start ++ cs) = none := by
    intro other hother cs
    have hstart := hpairwise.2.2 other hother _ List.mem_cons_self cs
    simp [LineForm.read?, hstart]
  rw [Line.toList_text, readLine?, hall, List.findSome?_append,
    List.findSome?_eq_none_iff.mpr fun other hother => hnone other hother _, Option.none_or,
    List.findSome?_cons, LineForm.read?_append hline.newline_not_mem
      (LineForm.newline_not_mem settings _ hform), Line.line?_between]
  rfl

/-- The text of a line is not skipped, as it begins with the words of its form. -/
theorem skipTrivia_text (settings : Settings) (line : Line) (cs : List Char) :
    ∃ c rest, skipTrivia false ((line.step settings).text.toList ++ cs) = c :: rest ∧
      (line.step settings).text.toList ++ cs = c :: rest := by
  rw [Line.toList_text]
  exact LineForm.skipTrivia_start settings _ (line.form_mem settings) _

/-- The text of a line is not empty, so that the line is indented. -/
theorem Line.text_ne_empty (settings : Settings) (line : Line) :
    (line.step settings).text ≠ "" := by
  intro hempty
  obtain ⟨c, rest, -, htext⟩ := skipTrivia_text settings line []
  rw [hempty] at htext
  exact nomatch htext

/-- A line at the front is read first, behind what is skipped in front of it. -/
theorem readLines?_succ {settings : Settings} {cs rest : List Char} {line : Line} {n : Nat}
    {lines : List Line} {c : Char} {text : List Char} (hskip : skipTrivia false cs = c :: text)
    (hline : readLine? settings (c :: text) = some (line, rest))
    (hrest : readLines? settings n rest = some lines) :
    readLines? settings (n + 1) cs = some (line :: lines) := by
  simp only [readLines?, hskip, hline, hrest, Option.bind_eq_bind, Option.bind_some]
  rfl

/-- The written form of plain lines reads as the lines. -/
theorem readLines?_written (settings : Settings) {lines : List Line}
    (hlines : ∀ line ∈ lines, line.IsPlain) (depth n : Nat) (hn : lines.length ≤ n) :
    readLines? settings n (CodeBuffer.written depth (lines.map (Line.step settings))).toList =
      some lines := by
  induction lines generalizing depth n with
  | nil => cases n <;> rfl
  | cons line lines ih =>
    obtain ⟨n, rfl⟩ := Nat.exists_eq_add_of_le' (Nat.le_trans (Nat.le_add_left 1 _) hn)
    have hrest := ih (fun other hother => hlines other (List.mem_cons_of_mem _ hother))
      ((line.step settings).depthAfter depth) n (Nat.le_of_succ_le_succ hn)
    obtain ⟨c, text, hskip, htext⟩ := skipTrivia_text settings line
      ('\n' :: (CodeBuffer.written ((line.step settings).depthAfter depth)
        (lines.map (Line.step settings))).toList)
    have hline := readLine?_text settings (hlines line List.mem_cons_self)
      (CodeBuffer.written ((line.step settings).depthAfter depth)
        (lines.map (Line.step settings))).toList
    rw [htext] at hline
    rw [List.map_cons, CodeBuffer.written, String.toList_append,
      CodeBuffer.toList_renderLine _ (line.text_ne_empty settings), List.append_assoc,
      List.append_assoc, List.singleton_append]
    exact readLines?_succ ((skipTrivia_replicate _ _).trans hskip) hline hrest

end Emission

end ServiceDispatch
