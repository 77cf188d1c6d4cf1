import BenchStats.Number

/-!
# Tables

A table is a header and rows of text cells. Numbers are read from the cells when they are asked
for: a column gives one value for each row, and none where the cell holds a missing value.
-/

namespace BenchStats

structure Table where
  headers : List String
  rows : List (List String)
  deriving DecidableEq

/-- A row that does not fit the header it is added under. -/
structure RowWidthError where
  expected : Nat
  found : Nat
  deriving DecidableEq

/-- Why a column cannot be read as numbers. -/
inductive ColumnError where
  | missing (name : String)
  /-- A cell holds neither a number nor a missing value; rows count from one. -/
  | nonNumeric (column : String) (row : Nat) (cell : String)
  deriving DecidableEq

def RowWidthError.message (e : RowWidthError) : String :=
  s!"row width {e.found} does not match {e.expected} columns"

def ColumnError.message : ColumnError → String
  | .missing name => s!"missing column '{name}'"
  | .nonNumeric column row cell => s!"column '{column}' row {row}: '{cell}' is not numeric"

namespace Table

def ofHeaders (headers : List String) : Table := ⟨headers, []⟩

/-- Every row has as many cells as the header. -/
def Rectangular (t : Table) : Prop := ∀ row ∈ t.rows, row.length = t.headers.length

instance (t : Table) : Decidable t.Rectangular := by
  unfold Rectangular
  infer_instance

/-- Adds a row at the end, if the row is as wide as the header. -/
def pushRow (row : List String) : ExceptT RowWidthError (StateM Table) Unit := do
  let t ← get
  if row.length = t.headers.length then set { t with rows := t.rows ++ [row] }
  else throw ⟨t.headers.length, row.length⟩

/-- The table with a row added at the end, if the row is accepted. -/
def push (t : Table) (row : List String) : Except RowWidthError Table :=
  match (pushRow row).run.run t with
  | (.ok (), grown) => .ok grown
  | (.error e, _) => .error e

/-- The position of the first column with a name. -/
def position? (t : Table) (name : String) : Option Nat := t.headers.findIdx? (· == name)

def hasColumn (t : Table) (name : String) : Bool := (t.position? name).isSome

def position (t : Table) (name : String) : Except ColumnError Nat :=
  match t.position? name with
  | some i => .ok i
  | none => .error (.missing name)

/-- The cells at a position, in row order; a row that ends before it counts as blank there. -/
def cellsAt (t : Table) (i : Nat) : List String := t.rows.map (·.getD i "")

/-- The value of a cell in a numeric column: none where it is missing or not-a-number. -/
def numericCell (column : String) (row : Nat) (cell : String) :
    Except ColumnError (Option Binary64) :=
  if Number.isMissing cell then .ok none
  else match Number.read? cell with
    | some number =>
      .ok (if number.toBinary64.isNaN then none else some number.toBinary64)
    | none => .error (.nonNumeric column row cell)

/-- The values of cells that stand in consecutive rows from the given one on. -/
def numericCells (column : String) :
    Nat → List String → Except ColumnError (List (Option Binary64))
  | _, [] => .ok []
  | row, cell :: rest => do
    let value ← numericCell column row cell
    let values ← numericCells column (row + 1) rest
    return value :: values

/-- The numeric view of a column, one entry a row. -/
def optionalColumn (t : Table) (name : String) : Except ColumnError (List (Option Binary64)) := do
  let i ← t.position name
  numericCells name 1 (t.cellsAt i)

/-- The values of a column, without the missing ones. -/
def column (t : Table) (name : String) : Except ColumnError (List Binary64) :=
  (t.optionalColumn name).map (·.reduceOption)

/-- The columns that hold at least one value and no text, in header order. A name that is repeated
stands for the first column of that name each time. -/
def numericColumns (t : Table) : List (String × List Binary64) :=
  t.headers.filterMap fun name =>
    match t.optionalColumn name with
    | .error _ => none
    | .ok cells => if cells.all Option.isNone then none else some (name, cells.reduceOption)

@[simp]
theorem ofHeaders_rectangular (headers : List String) : (ofHeaders headers).Rectangular := by
  intro row member
  simp [ofHeaders] at member

@[simp] theorem run_pushRow (t : Table) (row : List String) :
    (pushRow row).run.run t =
      if row.length = t.headers.length then (.ok (), ⟨t.headers, t.rows ++ [row]⟩)
      else (.error ⟨t.headers.length, row.length⟩, t) := by
  rw [pushRow]
  show (if row.length = t.headers.length then _ else _ :
    ExceptT RowWidthError (StateM Table) Unit).run.run t = _
  split
  · rfl
  · rfl

@[simp]
theorem push_of_fits {t : Table} {row : List String} (fits : row.length = t.headers.length) :
    t.push row = .ok ⟨t.headers, t.rows ++ [row]⟩ := by
  simp [push, fits]

@[simp]
theorem push_of_misfit {t : Table} {row : List String} (misfit : row.length ≠ t.headers.length) :
    t.push row = .error ⟨t.headers.length, row.length⟩ := by
  simp [push, misfit]

theorem Rectangular.push {t u : Table} (rectangular : t.Rectangular) {row : List String}
    (pushed : t.push row = .ok u) : u.Rectangular := by
  by_cases fits : row.length = t.headers.length
  · rw [push_of_fits fits] at pushed
    cases pushed
    intro other member
    rcases List.mem_append.1 member with old | new
    · exact rectangular other old
    · rw [List.mem_singleton.1 new]
      exact fits
  · rw [push_of_misfit fits] at pushed
    cases pushed

@[simp] theorem foldlM_push {t : Table} {rows : List (List String)}
    (fits : ∀ row ∈ rows, row.length = t.headers.length) :
    rows.foldlM push t = .ok ⟨t.headers, t.rows ++ rows⟩ := by
  induction rows generalizing t with
  | nil => rw [List.append_nil]; rfl
  | cons row rest inductionHypothesis =>
    have pushed := push_of_fits (fits row List.mem_cons_self)
    have restFits : ∀ other ∈ rest,
        other.length = (⟨t.headers, t.rows ++ [row]⟩ : Table).headers.length :=
      fun other member => fits other (List.mem_cons_of_mem _ member)
    rw [List.foldlM_cons, pushed]
    apply (inductionHypothesis restFits).trans
    rw [List.append_assoc, List.singleton_append]

end Table

end BenchStats
