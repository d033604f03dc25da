/-!
# Sorted ranges of code points

A class of characters is kept as an ascending list of closed ranges of code points.
-/

namespace RecordQuery.Text

/-! ## Algorithm -/

/-- Does `n` lie in one of the ranges? The list is ascending, so the search ends at the first range
that starts above `n`. -/
def inRanges (n : Nat) : List (Nat × Nat) → Bool
  | [] => false
  | (first, last) :: rest => if n < first then false else n ≤ last || inRanges n rest

end RecordQuery.Text
