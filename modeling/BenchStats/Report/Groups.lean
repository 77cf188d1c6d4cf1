import BenchStats.Report.Error
import BenchStats.Series.Histogram
import BenchStats.Series.Summary
import BenchStats.Table.Group

/-!
# Statistics of groups

The statistics of one column for every key in another, and histograms of the groups.
-/

namespace BenchStats.Report

def groupStatistics : List String :=
  ["average", "median", "min", "max", "percentile_25", "percentile_50", "percentile_75"]

def groupCells (s : Summary) : List String :=
  [s.mean, s.median, s.least, s.greatest, s.lowerQuartile, s.middleQuartile, s.upperQuartile].map
    Number.floatText

/-- The value of a key that is a number. -/
def numericKey? (key : String) : Option Binary64 := (Number.read? key).map Number.toBinary64

def numericKeyLe (a b : String) : Bool :=
  ((numericKey? a).getD .nan).totalLe ((numericKey? b).getD .nan)

/-- Keys as texts, by their code points. -/
def textKeyLe (a b : String) : Bool := decide (¬ b < a)

/-- The groups in the order of their keys: as numbers if all of them are, as texts otherwise.
Groups with equal keys keep their order. -/
def sortGroups (groups : Groups) : Groups :=
  if groups.all fun (key, _) => (numericKey? key).isSome then
    groups.mergeSort fun a b => numericKeyLe a.1 b.1
  else groups.mergeSort fun a b => textKeyLe a.1 b.1

/-- The statistics of a value column for every key in a key column. -/
def groups (t : Table) (key value : String) : Except ReportError Table := do
  let collected ← ReportError.ofColumn (t.groupBy key value)
  return {
    headers := key :: groupStatistics
    rows := (sortGroups collected).map fun (name, values) =>
      name :: groupCells (Summary.ofSeries values) }

/-- The rows of the histogram of one group. -/
def histogramRows (bins : Nat) (key : String) (values : List Binary64) : List (List String) :=
  (Series.histogram values bins).mapIdx fun i bin =>
    [key, Number.intText i, Number.floatText bin.lower, Number.floatText bin.upper,
      Number.intText bin.count]

/-- The histograms of all groups, each over its own range; a group without finite values has no
rows. -/
def histogram (groups : Groups) (bins : Nat) : Except ReportError Table :=
  if bins = 0 then .error .noBins
  else .ok {
    headers := ["group", "bin", "lower", "upper", "count"]
    rows := groups.flatMap fun (key, values) => histogramRows bins key values }

end BenchStats.Report
