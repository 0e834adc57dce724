/-!
# Sets of characters as ranges

A set of characters is a list of ranges of code points, each given by its first
and its last one, in ascending order.
-/

namespace SmallLisp.Text

/-- Whether a code point is in one of some ascending ranges. The search ends at the first range that
does not lie below the code point. -/
def inRanges (n : Nat) : List (Nat × Nat) → Bool
  | [] => false
  | (first, last) :: ranges => if n ≤ last then decide (first ≤ n) else inRanges n ranges

end SmallLisp.Text
