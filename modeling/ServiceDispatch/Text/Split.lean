/-!
# Splitting at a separator

A list is cut at every occurrence of a separator. Joining the pieces with the separator
gives the list back.
-/

namespace ServiceDispatch.Text

/-- The pieces of a list between the elements on which `p` holds; there is at least one. -/
def splitAtEach {α : Type} (p : α → Bool) : List α → List (List α)
  | [] => [[]]
  | c :: cs =>
    if p c then [] :: splitAtEach p cs
    else match splitAtEach p cs with
      | [] => [[c]]
      | piece :: pieces => (c :: piece) :: pieces

/-- The pieces of a text between the characters `c`. -/
def splitAtChar (c : Char) (s : String) : List String :=
  (splitAtEach (· == c) s.toList).map String.ofList

/-- There is always a first part, though it may be empty. -/
theorem splitAtEach_ne_nil {α : Type} (p : α → Bool) (cs : List α) : splitAtEach p cs ≠ [] := by
  cases cs with
  | nil => simp [splitAtEach]
  | cons c cs =>
    simp only [splitAtEach]
    split
    · simp
    · split <;> simp

end ServiceDispatch.Text
