/-!
# Range tables

A set of code points, given by ascending ranges with both ends included.
-/

namespace ShiftReduce.Text

/-- Whether a code point lies in one of the ascending ranges; the search ends at the first range
that begins beyond it. -/
def inRanges (n : Nat) : List (Nat × Nat) → Bool
  | [] => false
  | (first, last) :: rest => first ≤ n && (n ≤ last || inRanges n rest)

end ShiftReduce.Text
