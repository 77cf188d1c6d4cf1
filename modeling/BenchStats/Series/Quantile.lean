import BenchStats.Binary64.Arithmetic

/-!
# Quantiles

Quantiles of a sorted series, interpolated linearly between the two closest ranks. The result is
held between the values at these ranks, so rounding cannot step outside of them.
-/

namespace BenchStats.Series

/-- The value at a rank, held to the last rank; not-a-number if the series is empty. -/
def atRank (sorted : List Binary64) (rank : Nat) : Binary64 :=
  (sorted[rank]?).getD ((sorted.getLast?).getD .nan)

/-- The position of a fraction of a series among its ranks, of which the last one is given. The
fraction is held to the interval from `0` to `1`. -/
def position (last : Nat) (fraction : Binary64) : Binary64 :=
  (fraction.clamp .zero (.ofNat 1)).mul (.ofNat last)

/-- The closest rank that is not above a position, held to `0 … limit`. -/
def rankBelow (limit : Nat) (position : Binary64) : Nat := position.floor.clampToNat limit

/-- The value some part of the way up from one value to another, held between the two. -/
def interpolate (lower upper part : Binary64) : Binary64 :=
  (((upper.sub lower).fma part lower).max lower).min upper

/-- The quantile of a sorted series at a fraction. -/
def quantile (sorted : List Binary64) (fraction : Binary64) : Binary64 :=
  match sorted with
  | [] => .nan
  | [x] => x
  | _ =>
    let last := sorted.length - 1
    let position := position last fraction
    let rank := rankBelow last position
    interpolate (atRank sorted rank) (atRank sorted (min (rank + 1) last))
      (position.sub (.ofNat rank))

end BenchStats.Series
