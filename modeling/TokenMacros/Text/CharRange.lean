/-!
# Ranges of characters

A property of characters is listed as the ranges of code points that have it.
-/

namespace TokenMacros.Text

/-- The code point of `c` lies in one of the ranges, both ends included. -/
def inRanges (ranges : List (Nat × Nat)) (c : Char) : Bool :=
  ranges.any fun range => range.1 ≤ c.toNat && c.toNat ≤ range.2

end TokenMacros.Text
