import ServiceDispatch.Proofs.Emission.LineReading
import ServiceDispatch.Proofs.Reading.Lexing

/-!
# Reading indented text

Indentation and line breaks separate tokens, and the lines between the head of a block and its
closing brace are read as a group in braces.
-/

namespace ServiceDispatch

namespace CodeBuffer

/-! ## Balanced steps -/

/-- The depth after some steps. -/
def depthAfterAll (depth : Nat) (steps : List Step) : Nat :=
  steps.foldl (fun depth step => step.depthAfter depth) depth

/-- The text of steps is that of the first ones and that of the others behind them. -/
theorem written_append (depth : Nat) (front back : List Step) :
    written depth (front ++ back) =
      written depth front ++ written (depthAfterAll depth front) back := by
  induction front generalizing depth with
  | nil => exact (String.empty_append).symm
  | cons step front ih =>
    rw [List.cons_append, written, written, ih, String.append_assoc]
    rfl

/-- Whether steps end at the depth at which they begin. -/
def IsBalanced (steps : List Step) : Prop := ∀ depth, depthAfterAll depth steps = depth

/-- No steps are balanced: the depth stays as it is. -/
theorem isBalanced_nil : IsBalanced [] := fun _ => rfl

/-- A line is balanced. A line leaves the depth as it is. -/
theorem isBalanced_line (text : String) : IsBalanced [.line text] := fun _ => rfl

/-- Balanced steps behind balanced ones are balanced together. The depth in front of the second ones
is that in front of the first ones. -/
theorem IsBalanced.append {front back : List Step} (hfront : IsBalanced front)
    (hback : IsBalanced back) : IsBalanced (front ++ back) := by
  intro depth
  rw [depthAfterAll, List.foldl_append]
  show depthAfterAll (depthAfterAll depth front) back = depth
  rw [hfront, hback]

/-- Steps between a head and its closing brace. -/
def block (head : String) (body : List Step) : List Step := .enter head :: (body ++ [.leave])

/-- A block around balanced steps is balanced. Its header enters a scope and its closing brace
leaves it. -/
theorem IsBalanced.block {body : List Step} (hbody : IsBalanced body) (head : String) :
    IsBalanced (block head body) := by
  intro depth
  show depthAfterAll (depth + 1) (body ++ [.leave]) = depth
  rw [depthAfterAll, List.foldl_append]
  show (Step.leave).depthAfter (depthAfterAll (depth + 1) body) = depth
  rw [hbody]
  rfl

/-- The line with the head of a block is not empty, since it ends in a brace. -/
theorem head_ne_empty (head : String) : head ++ " \x7b" ≠ "" := by
  intro hempty
  have hlength := congrArg String.length hempty
  simp at hlength

/-- The characters of a block with a balanced body: its header and its closing brace stand at the
same depth, and the lines of the body one step deeper. -/
theorem toList_written_block {body : List Step} (hbody : IsBalanced body) (head : String)
    (depth : Nat) :
    (written depth (block head body)).toList = List.replicate (4 * depth) ' ' ++ (head.toList ++
      ([' '] ++ ('\x7b' :: (['\n'] ++ ((written (depth + 1) body).toList ++
        List.replicate (4 * depth) ' ') ++ ['\x7d']) ++ ['\n']))) := by
  have hlast : (written (depthAfterAll (depth + 1) body) [.leave]).toList =
      List.replicate (4 * depth) ' ' ++ ['\x7d', '\n'] := by
    rw [hbody]
    simp [written, Step.depth, Step.text, toList_renderLine]
  rw [block, written, String.toList_append, written_append, String.toList_append]
  show (renderLine depth (head ++ " \x7b")).toList ++ ((written (depth + 1) body).toList ++
    (written (depthAfterAll (depth + 1) body) [.leave]).toList) = _
  rw [hlast, toList_renderLine depth (head_ne_empty head)]
  simp

end CodeBuffer

namespace Lexer

open CodeBuffer (IsBalanced Step block written)

variable {rest : List Char}

/-! ## Blanks -/

/-- A line break separates tokens and is none itself. -/
theorem Reads.newline (rest : List Char) : Reads ['\n'] rest [] :=
  ⟨1, Nat.le_refl 1, fun _ _ _ => rfl⟩

/-- Indentation is read as no tokens, however deep it is. -/
theorem Reads.indent (n : Nat) (rest : List Char) : Reads (List.replicate n ' ') rest [] := by
  induction n with
  | zero => exact Reads.nil rest
  | succ n ih => exact (Reads.space (List.replicate n ' ' ++ rest)).append ih

/-- A line is read as its text, before the line break. -/
theorem Reads.line {text : String} (htext : text ≠ "") {ts : List Token} (depth : Nat)
    (hread : Reads text.toList ('\n' :: rest) ts) :
    Reads (written depth [.line text]).toList rest ts := by
  have hchars : (written depth [.line text]).toList =
      List.replicate (4 * depth) ' ' ++ (text.toList ++ ['\n']) := by
    simp [written, Step.depth, Step.text, CodeBuffer.toList_renderLine depth htext]
  have hall := (Reads.indent (4 * depth) _).append (hread.append (Reads.newline rest))
  rw [hchars]
  simpa using hall

/-- A block is read as its head and a group in braces, whatever holds of the tokens of either. -/
theorem exists_reads_block {head : String} {body : List Step} (hbody : IsBalanced body)
    (depth : Nat) (rest : List Char) {P Q : List Token → Prop}
    (hown : ∀ rest, ∃ ts, Reads head.toList (' ' :: rest) ts ∧ P ts)
    (hinner : ∀ rest, ∃ ts, Reads (written (depth + 1) body).toList rest ts ∧ Q ts) :
    ∃ own inner, Reads (written depth (block head body)).toList rest
      (own ++ [.group .brace inner]) ∧ P own ∧ Q inner := by
  obtain ⟨inner, hread, hQ⟩ :=
    hinner (List.replicate (4 * depth) ' ' ++ '\x7d' :: (['\n'] ++ rest))
  have hindent := Reads.indent (4 * depth) ('\x7d' :: (['\n'] ++ rest))
  have hlines : Reads (['\n'] ++ ((written (depth + 1) body).toList ++
      List.replicate (4 * depth) ' ')) ('\x7d' :: (['\n'] ++ rest)) inner := by
    have hall := (Reads.newline _).append (hread.append hindent)
    rwa [List.nil_append, List.append_nil] at hall
  have hgroup : Reads ('\x7b' :: (['\n'] ++ ((written (depth + 1) body).toList ++
      List.replicate (4 * depth) ' ') ++ ['\x7d'])) (['\n'] ++ rest) [.group .brace inner] :=
    Reads.group (d := .brace) hlines (nofun)
  obtain ⟨own, hfront, hP⟩ := hown ('\x7b' :: (['\n'] ++ ((written (depth + 1) body).toList ++
    List.replicate (4 * depth) ' ') ++ ['\x7d']) ++ ['\n'] ++ rest)
  have hblock := (Reads.space _).append (hgroup.append (Reads.newline rest))
  rw [CodeBuffer.toList_written_block hbody head]
  refine ⟨own, inner, ?_, hP, hQ⟩
  have hall := (Reads.indent (4 * depth) _).append (Reads.append (by simpa using hfront) hblock)
  simpa using hall

end Lexer

end ServiceDispatch
