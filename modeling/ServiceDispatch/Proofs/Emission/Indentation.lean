import Mathlib.Data.List.Infix
import ServiceDispatch.Proofs.Reading.Blocks

/-!
# Indentation

Every step appends one line. As long as no scope is left that was not entered, the depth is the
number of open scopes and each line is indented by it. In any case, a surplus of closing braces
included, the line that closes a scope is indented as the one that opens it.
-/

namespace ServiceDispatch.CodeBuffer

variable {front steps body : List Step} {depth : Nat}

/-! ## Counting scopes -/

/-- How many scopes a step enters. -/
def Step.enters : Step → Nat
  | .enter _ => 1
  | _ => 0

/-- How many scopes a step leaves, an open one or not. -/
def Step.leaves : Step → Nat
  | .leave => 1
  | _ => 0

/-- How many scopes steps enter. -/
def entered (steps : List Step) : Nat := steps.foldr (fun step n => step.enters + n) 0

/-- How many scopes steps leave, open ones or not. -/
def left (steps : List Step) : Nat := steps.foldr (fun step n => step.leaves + n) 0

/-- Whether steps leave only scopes that they have entered before. -/
def LeavesEntered (steps : List Step) : Prop :=
  ∀ front, front <+: steps → left front ≤ entered front

/-- Whether steps leave just the scopes that they enter. -/
def IsMatched (steps : List Step) : Prop := LeavesEntered steps ∧ left steps = entered steps

instance (steps : List Step) : Decidable (LeavesEntered steps) :=
  decidable_of_iff (∀ front ∈ steps.inits, left front ≤ entered front) (by
    simp only [List.mem_inits, LeavesEntered])

instance (steps : List Step) : Decidable (IsMatched steps) := inferInstanceAs (Decidable (_ ∧ _))

/-- One more step in front enters its scopes. -/
theorem entered_cons (step : Step) (rest : List Step) :
    entered (step :: rest) = step.enters + entered rest := rfl

/-- One more step in front leaves its scopes. -/
theorem left_cons (step : Step) (rest : List Step) :
    left (step :: rest) = step.leaves + left rest := rfl

/-- One more step behind leaves its scopes, besides those that were left before. -/
theorem left_concat (front : List Step) (step : Step) :
    left (front ++ [step]) = left front + step.leaves := by
  induction front with
  | nil => exact Nat.add_comm _ _
  | cons first front ih => rw [List.cons_append, left_cons, left_cons, ih, Nat.add_assoc]

/-! ## Depths -/

/-- A step that leaves no more than is open moves the depth by the scopes it enters and leaves. -/
theorem Step.depthAfter_add_leaves (step : Step) (hopen : step.leaves ≤ depth + step.enters) :
    step.depthAfter depth + step.leaves = depth + step.enters := by
  cases step with
  | line text => rfl
  | enter header => rfl
  | leave => exact Nat.sub_add_cancel hopen

/-- Where no more scopes are left than are open, the depth is the number of the open ones. -/
theorem depthAfterAll_add_left
    (hopen : ∀ front, front <+: steps → left front ≤ depth + entered front) :
    depthAfterAll depth steps + left steps = depth + entered steps := by
  induction steps generalizing depth with
  | nil => rfl
  | cons step rest ih =>
    have hfront (front : List Step) (hbegins : front <+: rest) :
        step.leaves + left front ≤ depth + (step.enters + entered front) := by
      rw [← left_cons, ← entered_cons]
      exact hopen _ ((List.prefix_cons_inj step).mpr hbegins)
    have hstep := step.depthAfter_add_leaves (hfront [] List.nil_prefix)
    have hrest : depthAfterAll (step.depthAfter depth) rest + left rest =
        step.depthAfter depth + entered rest := by
      refine ih fun front hbegins => ?_
      have hall := hfront front hbegins
      omega
    show depthAfterAll (step.depthAfter depth) rest + _ = _
    rw [left_cons, entered_cons]
    omega

/-- Matched steps end at the depth at which they begin, whatever it is. -/
theorem IsMatched.isBalanced (hbody : IsMatched body) : IsBalanced body := by
  intro depth
  have hdepth : depthAfterAll depth body + left body = depth + entered body :=
    depthAfterAll_add_left fun front hfront =>
      (hbody.1 front hfront).trans (Nat.le_add_left _ _)
  have hsame := hbody.2
  omega

/-! ## Lines -/

/-- The buffer after steps from the beginning. -/
def after (steps : List Step) : CodeBuffer := applyAll {} steps

/-- Steps set the depth one after the other, whatever they write. -/
theorem depth_applyAll (b : CodeBuffer) (steps : List Step) :
    (b.applyAll steps).depth = depthAfterAll b.depth steps := by
  induction steps generalizing b with
  | nil => rfl
  | cons step rest ih =>
    have hrest := ih (b.apply step)
    rw [apply_eq] at hrest
    rw [applyAll, List.foldl_cons, apply_eq]
    exact hrest

/-- The depth from the beginning, which is zero before the first step. -/
theorem depth_after (steps : List Step) : (after steps).depth = depthAfterAll 0 steps :=
  depth_applyAll {} steps

/-- The output from the beginning is what the steps write. -/
theorem output_after (steps : List Step) : (after steps).output = written 0 steps := by
  rw [after, output_applyAll]
  exact String.empty_append

/-- A line without its line break. -/
def lineText (depth : Nat) (text : String) : String :=
  if text = "" then "" else indent depth ++ text

/-- A line is rendered with its line break, also if it is empty. -/
theorem renderLine_eq (depth : Nat) (text : String) :
    renderLine depth text = lineText depth text ++ "\n" := by
  rw [renderLine, lineText]
  split
  · exact String.empty_append.symm
  · rfl

/-- A line has no line break if its text has none. -/
theorem newline_not_mem_lineText {text : String} (htext : '\n' ∉ text.toList) (depth : Nat) :
    '\n' ∉ (lineText depth text).toList := by
  rw [lineText]
  split
  · exact List.not_mem_nil
  · rw [String.toList_append, List.mem_append, not_or]
    refine ⟨fun hindent => ?_, htext⟩
    rw [indent, String.toList_ofList] at hindent
    exact absurd (List.eq_of_mem_replicate hindent) (by decide)

/-- One more step appends its line, at the depth that it has from the steps before. -/
theorem output_after_concat (front : List Step) (step : Step) :
    (after (front ++ [step])).output = (after front).output ++
      (lineText (step.depth (after front).depth) step.text ++ "\n") := by
  rw [output_after, output_after, written_append, depth_after, ← renderLine_eq, written, written,
    String.append_empty]

/-- A line of a step that is not empty is its text behind four spaces for each level of the depth at
which it stands. -/
theorem output_after_concat_of_ne {step : Step} (hne : step.text ≠ "") (front : List Step) :
    (after (front ++ [step])).output = (after front).output ++
      (String.ofList (List.replicate (4 * step.depth (after front).depth) ' ') ++ step.text ++
        "\n") := by
  rw [output_after_concat, lineText, if_neg hne, indent]

/-- The output after the first steps stays at the front. -/
theorem output_after_prefix (hfront : front <+: steps) :
    (after front).output.toList <+: (after steps).output.toList := by
  obtain ⟨back, rfl⟩ := hfront
  rw [output_after, output_after, written_append, String.toList_append]
  exact List.prefix_append _ _

/-- While no more scopes are left than were entered, the depth is the number of open scopes. -/
theorem depth_after_eq (hopen : LeavesEntered steps) (hfront : front <+: steps) :
    (after front).depth = entered front - left front := by
  have hdepth : depthAfterAll 0 front + left front = 0 + entered front := by
    refine depthAfterAll_add_left fun first hfirst => ?_
    rw [Nat.zero_add]
    exact hopen first (hfirst.trans hfront)
  rw [depth_after]
  omega

/-- The line of a step is indented by the scopes that are open behind what the step leaves. -/
theorem depth_after_of_step (hopen : LeavesEntered steps) {step : Step}
    (hfront : front ++ [step] <+: steps) :
    step.depth (after front).depth = entered front - left (front ++ [step]) := by
  rw [depth_after_eq hopen ((List.prefix_append front [step]).trans hfront), left_concat]
  cases step with
  | leave => exact Nat.sub_sub _ _ _
  | _ => rfl

/-- The depth behind a scope whose body leaves what it enters is one more than before the scope, up
to the closing brace. -/
theorem depth_after_body (hbody : IsMatched body) (front : List Step) (header : String) :
    (after (front ++ .enter header :: body)).depth = (after front).depth + 1 := by
  rw [depth_after, depth_after, depthAfterAll, List.foldl_append]
  exact hbody.isBalanced _

/-- A closing brace goes one scope up; at the top it stays there. -/
theorem depth_after_leave (front : List Step) :
    (after (front ++ [.leave])).depth = (after front).depth - 1 := by
  rw [depth_after, depth_after, depthAfterAll, List.foldl_append]
  rfl

/-- The buffer keeps braces and indentation in step, for texts without line breaks. What was written
stays at the front; each step appends just one line; while no more scopes are left than were
entered, the depth is the number of open scopes, and a line that is not empty is its text behind
four spaces for each of them. Whatever was left before, the brace that closes a scope has the
indentation of its header; and without an open scope a further brace leaves the depth at zero. -/
theorem after_keepsInStep (hlines : ∀ step ∈ steps, '\n' ∉ step.text.toList) :
    (∀ front, front <+: steps →
        (after front).output.toList <+: (after steps).output.toList) ∧
      (∀ front step, front ++ [step] <+: steps → ∃ line, '\n' ∉ line.toList ∧
        (after (front ++ [step])).output = (after front).output ++ (line ++ "\n")) ∧
      (LeavesEntered steps →
        (∀ front, front <+: steps → (after front).depth = entered front - left front) ∧
        ∀ front step, front ++ [step] <+: steps → step.text ≠ "" →
          (after (front ++ [step])).output = (after front).output ++
            (String.ofList (List.replicate (4 * (entered front - left (front ++ [step]))) ' ') ++
              step.text ++ "\n")) ∧
      (∀ front header body, front ++ .enter header :: body ++ [.leave] <+: steps →
        IsMatched body → ∃ depth,
          (after (front ++ [.enter header])).output = (after front).output ++
            (String.ofList (List.replicate (4 * depth) ' ') ++ (header ++ " \x7b") ++ "\n") ∧
          (after (front ++ .enter header :: body ++ [.leave])).output =
            (after (front ++ .enter header :: body)).output ++
              (String.ofList (List.replicate (4 * depth) ' ') ++ "\x7d" ++ "\n") ∧
          (after (front ++ .enter header :: body ++ [.leave])).depth = depth) ∧
      (∀ front, front ++ [.leave] <+: steps → (after front).depth = 0 →
        (after (front ++ [.leave])).depth = 0) := by
  refine ⟨fun front => output_after_prefix, fun front step hstep => ?line, fun hopen => ⟨?_, ?_⟩,
    fun front header body _ hbody => ?scope, fun front _ hzero => ?surplus⟩
  case line =>
    have hmem : step ∈ steps := hstep.subset (by simp)
    exact ⟨_, newline_not_mem_lineText (hlines step hmem) _, output_after_concat front step⟩
  · intro front hfront
    exact depth_after_eq hopen hfront
  · intro front step hstep hne
    rw [output_after_concat_of_ne hne, depth_after_of_step hopen hstep]
  case scope =>
    have hheader : (Step.enter header).text ≠ "" := by simp [Step.text]
    have hdepth := depth_after_body hbody front header
    refine ⟨(after front).depth, output_after_concat_of_ne hheader front, ?_, ?_⟩
    · rw [output_after_concat_of_ne (by decide), hdepth]
      rfl
    · rw [depth_after_leave, hdepth, Nat.add_sub_cancel]
  case surplus => rw [depth_after_leave, hzero]

/-- The first brace closes nothing. The scope behind it is closed at the indentation of its
header. -/
def surplusSteps : List Step := [.leave, .enter "if true", .line "run();", .leave]

/-- Behind a surplus of one brace the depth is zero, and the next scope is closed at the indentation
of its header. Without the surplus the line in the scope is indented by four spaces. -/
theorem after_keepsInStep_surplusSteps :
    (∀ step ∈ surplusSteps, '\n' ∉ step.text.toList) ∧ ¬ LeavesEntered surplusSteps ∧
      (after [.leave]).depth = 0 ∧ LeavesEntered surplusSteps.tail ∧
      (∃ depth, (after [.leave, .enter "if true"]).output =
          (after [.leave]).output ++
            (String.ofList (List.replicate (4 * depth) ' ') ++ "if true \x7b" ++ "\n") ∧
        (after surplusSteps).output = (after [.leave, .enter "if true", .line "run();"]).output ++
          (String.ofList (List.replicate (4 * depth) ' ') ++ "\x7d" ++ "\n") ∧
        (after surplusSteps).depth = depth) ∧
      (after [.enter "if true", .line "run();"]).output =
        (after [.enter "if true"]).output ++ ("    " ++ "run();" ++ "\n") := by
  have hlines : ∀ step ∈ surplusSteps, '\n' ∉ step.text.toList := by decide
  have htail : ∀ step ∈ surplusSteps.tail, '\n' ∉ step.text.toList := by decide
  have hopened : LeavesEntered surplusSteps.tail := by decide
  obtain ⟨-, -, -, hscopes, hsurplus⟩ := after_keepsInStep hlines
  obtain ⟨-, -, hopen, -, -⟩ := after_keepsInStep htail
  refine ⟨hlines, by decide, hsurplus [] (by decide) rfl, hopened, ?_, ?_⟩
  · exact hscopes [.leave] "if true" [.line "run();"] List.prefix_rfl (by decide)
  · exact (hopen hopened).2 [.enter "if true"] (.line "run();") (by decide) (by decide)

end ServiceDispatch.CodeBuffer
