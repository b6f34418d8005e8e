/-!
# Ranges of code points

Properties of characters are given as lists of ranges of code points.
-/

namespace PerfRelay

/-- Whether a code point lies in one of the ranges. -/
def inRanges (ranges : List (Nat × Nat)) (n : Nat) : Bool :=
  ranges.any fun (lo, hi) => lo ≤ n && n ≤ hi

end PerfRelay
