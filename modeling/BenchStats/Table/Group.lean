import BenchStats.Table.Basic

/-!
# Groups of rows

The values of one column, collected by the text of another. Groups come in the order in which
their keys first appear, and the values of a group in row order.
-/

namespace BenchStats

/-- Values collected under keys. -/
abbrev Groups := List (String × List Binary64)

namespace Groups

/-- The groups with a key present, and a value added to its group if there is one. -/
def add (key : String) (value : Option Binary64) : Groups → Groups
  | [] => [(key, value.toList)]
  | (k, values) :: rest =>
    if k = key then (k, values ++ value.toList) :: rest else (k, values) :: add key value rest

end Groups

namespace Table

/-- The key that a cell gives: its text without blanks around it, unless that is a missing value
or any other spelling of not-a-number. -/
def groupKey? (cell : String) : Option String :=
  let key := String.ofList (Text.trim cell.toList)
  if Number.isMissing key then none
  else match Number.read? key with
    | some number => if number.toBinary64.isNaN then none else some key
    | none => some key

/-- The rows that have a key, with their values. -/
def keyedValues (keys : List String) (values : List (Option Binary64)) :
    List (String × Option Binary64) :=
  (keys.zip values).filterMap fun (cell, value) => (groupKey? cell).map (·, value)

/-- The values of one column by the keys in another. -/
def groupBy (t : Table) (key value : String) : Except ColumnError Groups := do
  let i ← t.position key
  let values ← t.optionalColumn value
  return (keyedValues (t.cellsAt i) values).foldl (fun groups (k, v) => groups.add k v) []

end Table

end BenchStats
