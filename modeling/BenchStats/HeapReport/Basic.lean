import BenchStats.HeapReport.Line
import BenchStats.Json.Basic
import BenchStats.Json.Tree
import BenchStats.Table.Basic
import BenchStats.Text.Lines

/-!
# Heap reports

A heap report is read as its snapshots, all of them or none. They are written as a table of six
columns or as a JSON value, and can be read back from JSON.
-/

namespace BenchStats

/-- The snapshots of a heap report, in the order of their lines. -/
structure HeapReport where
  snapshots : List Snapshot
  deriving DecidableEq

namespace HeapReport

/-- The snapshots in the text of a report. -/
def read? (text : String) : Except LineError HeapReport := do
  let snapshots ← readLines 1 (Text.lines text.toList)
  return ⟨snapshots⟩

/-- For each column, whether any of its values is a floating-point number. -/
def floatColumns (report : HeapReport) : List Bool :=
  report.snapshots.foldl
    (fun marks snapshot =>
      List.zipWith (fun mark value => mark || !value.isInt) marks snapshot.values)
    (Snapshot.columns.map fun _ => false)

/-- The text of a value, in a column of integers or of floating-point numbers. -/
def cellText (asFloat : Bool) (value : Number) : String :=
  if asFloat then Decimal.heapLayout.cellText value.toBinary64 else value.text

/-- The table of the snapshots. A column with a floating-point number in it is written as such
throughout. -/
def toTable (report : HeapReport) : Table :=
  let floatColumns := report.floatColumns
  { headers := Snapshot.columns
    rows := report.snapshots.map fun snapshot =>
      List.zipWith cellText floatColumns snapshot.values }

/-- The names of the values of a snapshot in JSON, in the order of the columns. -/
def jsonKeys : List String :=
  ["n", "time_i", "total_bytes", "useful_heap_bytes", "extra_heap_bytes", "stacks_bytes"]

def toJson (report : HeapReport) : Json :=
  .object [("records", .array (report.snapshots.map fun snapshot =>
    .object (jsonKeys.zip (snapshot.values.map .number))))]

def snapshotOfTree? (tree : JsonTree) : Option Snapshot := do
  let fields ← tree.fields? jsonKeys
  let values ← fields.mapM JsonTree.number?
  Snapshot.ofValues? values

def ofJson? (text : String) : Option HeapReport := do
  let tree ← JsonTree.read? text
  match ← tree.fields? ["records"] with
  | [records] =>
    let elements ← records.elements?
    let snapshots ← elements.mapM snapshotOfTree?
    return ⟨snapshots⟩
  | _ => none

end HeapReport

end BenchStats
