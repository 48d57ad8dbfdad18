/-! # Ranges of code points

A property of characters is given as data: the ranges of the code points that have it.
-/

namespace MatrixLang.Text

/-- The first and the last code point of each range, in ascending order. -/
abbrev Ranges := List (Nat × Nat)

def inRanges (n : Nat) (ranges : Ranges) : Bool :=
  ranges.any fun r => r.1 ≤ n && n ≤ r.2

end MatrixLang.Text
