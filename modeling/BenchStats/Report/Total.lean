import BenchStats.Report.Columns
import BenchStats.Report.Error
import BenchStats.Series.Change

/-!
# Comparison of one column

Five statistics of a column in two tables, with the change from the first to the second.
-/

namespace BenchStats.Report

/-- The statistics that are compared, with their names. -/
def totalStatistics (s : Summary) : List (String × Binary64) :=
  [("Mean", s.mean), ("Median", s.median), ("Std Dev", s.deviation), ("Min", s.least),
    ("Max", s.greatest)]

/-- One column compared across two tables, both of which have to have it. -/
def total (first second : Table) (column : String) : Except ReportError Table :=
  if !first.hasColumn column || !second.hasColumn column then .error (.missingInBoth column)
  else do
    let before ← ReportError.ofColumn (first.column column)
    let after ← ReportError.ofColumn (second.column column)
    let rows := List.zipWith
      (fun (name, a) (_, b) =>
        [name, Number.floatText a, Number.floatText b, Number.floatText (Series.percentChange a b)])
      (totalStatistics (Summary.ofSeries before)) (totalStatistics (Summary.ofSeries after))
    return ⟨"Statistic" :: (sideLabels ++ ["Percentage Difference (%)"]), rows⟩

end BenchStats.Report
