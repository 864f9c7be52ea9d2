/-!
# Ascending ranges

A set of numbers is written as a flat list of bounds `[lo₁, hi₁, lo₂, hi₂, …]` in ascending
order; both bounds belong to their range.
-/

namespace ServiceDispatch.Text

/-- Whether a number lies in one of the ascending ranges. -/
def inRanges (n : Nat) : List Nat → Bool
  | lo :: hi :: more => if n < lo then false else if n ≤ hi then true else inRanges n more
  | _ => false

end ServiceDispatch.Text
