/-!
# Ranges of code points

A class of characters given as a list of ranges, ends included.
-/

namespace Symbolicate.Text

/-- Whether a code point lies in one of the ranges. -/
def inRanges (ranges : List (Nat × Nat)) (n : Nat) : Bool := ranges.any fun r => r.1 ≤ n && n ≤ r.2

end Symbolicate.Text
