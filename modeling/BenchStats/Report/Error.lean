import BenchStats.Table.Basic

/-!
# Errors of reports
-/

namespace BenchStats

inductive ReportError where
  /-- A column is not there, or not numeric. -/
  | column (cause : ColumnError)
  /-- The column to compare is not in both tables. -/
  | missingInBoth (name : String)
  | noBins
  | duplicateLabel (label : String)
  deriving DecidableEq

def ReportError.message : ReportError → String
  | .column cause => cause.message
  | .missingInBoth name => s!"both files must contain a '{name}' column"
  | .noBins => "histogram needs at least one bin"
  | .duplicateLabel label => s!"profile labels must differ (both are '{label}')"

/-- A column read for a report. -/
def ReportError.ofColumn {α : Type} (read : Except ColumnError α) : Except ReportError α :=
  read.mapError .column

@[simp]
theorem ReportError.ofColumn_eq_ok_iff {α : Type} {read : Except ColumnError α} {values : α} :
    ofColumn read = .ok values ↔ read = .ok values := by
  cases read with
  | error e => exact iff_of_false nofun nofun
  | ok found => exact ⟨fun given => by cases given; rfl, fun given => by cases given; rfl⟩

end BenchStats
