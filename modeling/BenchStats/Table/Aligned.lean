import BenchStats.Table.Basic

/-!
# Aligned text

A table for the terminal: every column is as wide as its widest cell and aligned to the right, two
spaces stand between columns, and no line ends in blanks.
-/

namespace BenchStats.Table

/-- The number of characters in the widest cell of each column. -/
def widths (t : Table) : List Nat :=
  t.rows.foldl (fun widest row => List.zipWith max widest
      (row.map String.length ++ List.replicate (widest.length - row.length) 0))
    (t.headers.map String.length)

/-- A cell filled up with spaces on the left. -/
def alignRight (width : Nat) (cell : String) : List Char :=
  List.replicate (width - cell.length) ' ' ++ cell.toList

def alignedLine (widths : List Nat) (cells : List String) : List Char :=
  Text.trimEnd ([' ', ' '].intercalate (List.zipWith alignRight widths cells)) ++ ['\n']

def aligned (t : Table) : String :=
  String.ofList ((t.headers :: t.rows).flatMap (alignedLine t.widths))

end BenchStats.Table
