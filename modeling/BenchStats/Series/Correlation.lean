import BenchStats.Binary64.Arithmetic

/-!
# Correlation

The Pearson correlation of two series over the pairs in which both sides are present. It is not
defined for fewer than two such pairs, or where one side does not vary.
-/

namespace BenchStats.Series

/-- The pairs in which both sides are numbers. -/
def completePairs (xs ys : List (Option Binary64)) : List (Binary64 × Binary64) :=
  (xs.zip ys).filterMap fun
    | (some x, some y) => if x.isNaN || y.isNaN then none else some (x, y)
    | _ => none

/-- The sums of the products of deviations: mixed, of the first side and of the second side. -/
structure Moments where
  mixed : Binary64
  first : Binary64
  second : Binary64

/-- The moments with the deviations of one more pair. -/
def Moments.add (m : Moments) (dx dy : Binary64) : Moments :=
  ⟨m.mixed.add (dx.mul dy), m.first.add (dx.mul dx), m.second.add (dy.mul dy)⟩

/-- The moments of pairs around a centre, summed from left to right. -/
def moments (centre : Binary64 × Binary64) (pairs : List (Binary64 × Binary64)) : Moments :=
  pairs.foldl (fun m (x, y) => m.add (x.sub centre.1) (y.sub centre.2))
    ⟨.zero, .zero, .zero⟩

/-- The correlation of two series. -/
def correlation (xs ys : List (Option Binary64)) : Binary64 :=
  let pairs := completePairs xs ys
  if pairs.length < 2 then .nan
  else
    let count := Binary64.ofNat pairs.length
    let centre := ((Binary64.sum (pairs.map Prod.fst)).div count,
      (Binary64.sum (pairs.map Prod.snd)).div count)
    let m := moments centre pairs
    if m.first.numericEq .zero || m.second.numericEq .zero then .nan
    else m.mixed.div (m.first.mul m.second).sqrt

end BenchStats.Series
