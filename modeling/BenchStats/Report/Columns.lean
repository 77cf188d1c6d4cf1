import BenchStats.Series.Summary
import BenchStats.Table.Basic

/-!
# Side-by-side statistics of two tables

One row for each column that is numeric in one of the tables: those of the first in its order, then
those that only the second has. A side on which the column is not numeric stays empty.
-/

namespace BenchStats.Report

def sideLabels : List String := ["File1", "File2"]

def columnStatistics : List String :=
  ["mean", "median", "std_dev", "min", "max", "25th_percentile", "75th_percentile"]

/-- The statistics of a column, in the order of their names. -/
def columnCells (s : Summary) : List String :=
  [s.mean, s.median, s.deviation, s.least, s.greatest, s.lowerQuartile, s.upperQuartile].map
    Number.floatText

/-- The summaries of the numeric columns of a table, in header order. -/
def columnSummaries (t : Table) : List (String × Summary) :=
  t.numericColumns.map fun (name, values) => (name, Summary.ofSeries values)

/-- The cells of one side: the statistics of the first column of a name, or as many empty ones. -/
def sideCells (summaries : List (String × Summary)) (name : String) : List String :=
  match summaries.lookup name with
  | some summary => columnCells summary
  | none => columnStatistics.map fun _ => ""

/-- The names with those of a second list added that are not there yet. -/
def addNames (names : List String) (more : List String) : List String :=
  more.foldl (fun all name => if name ∈ all then all else all ++ [name]) names

/-- The statistics of all numeric columns of two tables side by side. -/
def columns (first second : Table) : Table :=
  let left := columnSummaries first
  let right := columnSummaries second
  { headers := "Column" ::
      sideLabels.flatMap fun side => columnStatistics.map fun statistic => s!"{side} {statistic}"
    rows := (addNames (left.map Prod.fst) (right.map Prod.fst)).map fun name =>
      name :: (sideCells left name ++ sideCells right name) }

end BenchStats.Report
