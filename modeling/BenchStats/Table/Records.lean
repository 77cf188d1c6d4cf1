import BenchStats.Json.Printer
import BenchStats.Table.Basic

/-!
# Tables as JSON

A table is written as an array of objects, one for each row, with the header names as keys. A cell
becomes `null`, a number or a string, by the same rules that the numeric views follow; infinities
have no JSON number and stay strings.
-/

namespace BenchStats.Table

def jsonCell (cell : String) : Json :=
  if Number.isMissing cell then .null
  else match Number.read? cell with
    | some (.int value) => .number (.int value)
    | some (.float value) => if value.isFinite then .ofBinary64 value else .string cell
    | none => .string cell

def toRecords (t : Table) : Json :=
  .array (t.rows.map fun row => Json.ofMembers (t.headers.zip (row.map jsonCell)))

/-- The table itself as a JSON value: the header and the rows as they are. -/
def toJson (t : Table) : Json :=
  let strings (cells : List String) : Json := .array (cells.map .string)
  .object [("headers", strings t.headers), ("rows", .array (t.rows.map strings))]

end BenchStats.Table
