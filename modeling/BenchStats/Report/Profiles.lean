import BenchStats.Report.Error
import BenchStats.Series.Change
import BenchStats.Series.Correlation
import BenchStats.Series.Summary

/-!
# Comparison of two profiles

A profile is a table with a duration and a count of visited nodes in each row. Two profiles are
compared by six statistics of both columns and by the correlation of the columns.
-/

namespace BenchStats

structure ProfileColumns where
  duration : String := "duration in microseconds"
  visited : String := "visited nodes"
  deriving DecidableEq

namespace Report

/-- Six statistics of a column, named after it. -/
def measuresOf (suffix : String) (s : Summary) : List (String × Binary64) :=
  [("average", s.mean), ("median", s.median), ("min", s.least), ("max", s.greatest),
    ("25th_percentile", s.lowerQuartile), ("75th_percentile", s.upperQuartile)].map
    fun (name, value) => (s!"{name}_{suffix}", value)

def measures (t : Table) (names : ProfileColumns) :
    Except ReportError (List (String × Binary64)) := do
  let duration ← ReportError.ofColumn (t.optionalColumn names.duration)
  let visited ← ReportError.ofColumn (t.optionalColumn names.visited)
  return measuresOf "duration" (Summary.ofSeries duration.reduceOption) ++
    measuresOf "visited_nodes" (Summary.ofSeries visited.reduceOption) ++
    [("correlation_coefficient", Series.correlation duration visited)]

/-- Two profiles compared under labels that tell them apart. -/
def profiles (old new : Table) (names : ProfileColumns) (oldLabel newLabel : String) :
    Except ReportError Table :=
  if oldLabel = newLabel then .error (.duplicateLabel oldLabel)
  else do
    let before ← measures old names
    let after ← measures new names
    let rows := List.zipWith
      (fun (name, a) (_, b) =>
        [name, Number.floatText a, Number.floatText b,
          Number.floatText (Series.percentDifference a b)])
      before after
    return ⟨["Statistical Measure", oldLabel, newLabel, "percent_difference"], rows⟩

end Report

end BenchStats
