import BenchStats.Json.Basic
import BenchStats.Series.Quantile

/-!
# Summaries

Descriptive statistics of a series. Not-a-number entries stand for missing values and are left
out; the others are sorted first, so the order in which they come cannot change a sum.
-/

namespace BenchStats

structure Summary where
  count : Nat
  mean : Binary64
  median : Binary64
  /-- The sample estimate: the squares are divided by one less than the count. -/
  deviation : Binary64
  least : Binary64
  greatest : Binary64
  lowerQuartile : Binary64
  /-- The fiftieth percentile, which is the median once more. -/
  middleQuartile : Binary64
  upperQuartile : Binary64
  deriving DecidableEq

namespace Series

/-- The values that are numbers, in the total order. -/
def sorted (values : List Binary64) : List Binary64 :=
  (values.filter (!·.isNaN)).mergeSort Binary64.totalLe

def mean (values : List Binary64) : Binary64 :=
  (Binary64.sum values).div (.ofNat values.length)

/-- The sample standard deviation around a mean; undefined for fewer than two values. -/
def deviation (values : List Binary64) (mean : Binary64) : Binary64 :=
  if values.length < 2 then .nan
  else
    let squares := values.map fun value => (value.sub mean).mul (value.sub mean)
    ((Binary64.sum squares).div (.ofNat (values.length - 1))).sqrt

end Series

namespace Summary

/-- The summary of a series; every statistic of an empty one is not-a-number. -/
def ofSeries (values : List Binary64) : Summary :=
  let sorted := Series.sorted values
  match sorted with
  | [] => ⟨0, .nan, .nan, .nan, .nan, .nan, .nan, .nan, .nan⟩
  | first :: _ =>
    let mean := Series.mean sorted
    let median := Series.quantile sorted (.ofRat false (1 / 2))
    { count := sorted.length
      mean
      median
      deviation := Series.deviation sorted mean
      least := first
      greatest := Series.atRank sorted (sorted.length - 1)
      lowerQuartile := Series.quantile sorted (.ofRat false (1 / 4))
      middleQuartile := median
      upperQuartile := Series.quantile sorted (.ofRat false (3 / 4)) }

/-- The summary as a JSON object. -/
def toJson (s : Summary) : Json :=
  .object [("count", .ofNat s.count), ("mean", .ofBinary64 s.mean),
    ("median", .ofBinary64 s.median), ("std_dev", .ofBinary64 s.deviation),
    ("min", .ofBinary64 s.least), ("max", .ofBinary64 s.greatest),
    ("p25", .ofBinary64 s.lowerQuartile), ("p50", .ofBinary64 s.middleQuartile),
    ("p75", .ofBinary64 s.upperQuartile)]

end Summary

end BenchStats
