/-!
# Ranges of characters

Character classes are lists of ranges of code points, in increasing order.
-/

namespace BenchStats.Text

/-- Whether a character lies in one of the ranges; both ends belong to a range. -/
def inRanges (ranges : List (Nat × Nat)) (c : Char) : Bool :=
  ranges.any fun (first, last) => first ≤ c.toNat && c.toNat ≤ last

end BenchStats.Text
