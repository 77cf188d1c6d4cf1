import BenchStats.Proofs.Table.Grouping
import BenchStats.Report.Groups
import BenchStats.Report.Profiles
import BenchStats.Report.Total
import BenchStats.Table.Csv
import Mathlib.Logic.Function.Basic

/-!
# Rows as wide as the header

A table starts from a header or from a text and grows by rows that fit, so at any time each row is
as wide as the header.  A position that is found in the header is then a position in every row, and
no view of a column asks a row for a cell that it does not have.
-/

namespace BenchStats

namespace Table

/-- The table after an attempt to add a row, which may have been refused. -/
def afterPush (t : Table) (row : List String) : Table := ((pushRow row).run.run t).2

/-- The tables that there can be: those of a header, those read from a text, and what attempts to
add rows leave of them. -/
inductive Arises : Table → Prop where
  | ofHeaders (headers : List String) : Arises (ofHeaders headers)
  | ofCsv {text : String} {t : Table} : ofCsv? text = .ok t → Arises t
  | push {t : Table} (row : List String) : Arises t → Arises (t.afterPush row)

@[simp]
theorem afterPush_of_fits {t : Table} {row : List String} (fits : row.length = t.headers.length) :
    t.afterPush row = ⟨t.headers, t.rows ++ [row]⟩ := by
  simp [afterPush, fits]

@[simp] theorem afterPush_of_misfit {t : Table} {row : List String}
    (misfit : row.length ≠ t.headers.length) : t.afterPush row = t := by
  simp [afterPush, misfit]

theorem Rectangular.afterPush {t : Table} (rectangular : t.Rectangular) (row : List String) :
    (t.afterPush row).Rectangular := by
  by_cases fits : row.length = t.headers.length
  · rw [afterPush_of_fits fits]
    exact rectangular.push (push_of_fits fits)
  · rw [afterPush_of_misfit fits]
    exact rectangular

theorem Arises.rectangular {t : Table} (arises : t.Arises) : t.Rectangular := by
  induction arises with
  | ofHeaders headers => exact ofHeaders_rectangular headers
  | ofCsv read => exact ofCsv?_rectangular read
  | push row _ inductionHypothesis => exact inductionHypothesis.afterPush row

/-- Reading cells one by one.  A row without a cell at the position asked for breaks it off, which
is no error of the column. -/
abbrev CellReader := ExceptT ColumnError Option

namespace CellReader

variable {α β : Type}

/-- What is known without a further cell. -/
def known (result : Except ColumnError α) : CellReader α := some result

def cell (row : List String) (i : Nat) : CellReader String := ExceptT.lift row[i]?

@[simp] theorem known_bind (result : Except ColumnError α) (next : α → Except ColumnError β) :
    (known result >>= fun value => known (next value)) = known (result >>= next) := by
  cases result <;> rfl

theorem cell_eq {row : List String} {i : Nat} (inside : i < row.length) :
    cell row i = known (.ok (row.getD i "")) := by
  rw [cell, List.getD_eq_getElem?_getD, List.getElem?_eq_getElem inside]
  rfl

@[simp] theorem ok_bind (value : α) (next : α → CellReader β) :
    known (.ok value) >>= next = next value := rfl

end CellReader

open CellReader

def readCells (name : String) (i : Nat) :
    Nat → List (List String) → CellReader (List (Option Binary64))
  | _, [] => known (.ok [])
  | number, row :: rest => do
    let text ← cell row i
    let value ← known (numericCell name number text)
    let values ← readCells name i (number + 1) rest
    return value :: values

def readKeys (i : Nat) : List (List String) → CellReader (List String)
  | [] => known (.ok [])
  | row :: rest => do
    let key ← cell row i
    let keys ← readKeys i rest
    return key :: keys

def readColumn (t : Table) (name : String) : CellReader (List (Option Binary64)) := do
  let i ← known (t.position name)
  readCells name i 1 t.rows

def readGroups (t : Table) (key value : String) : CellReader Groups := do
  let i ← known (t.position key)
  let values ← t.readColumn value
  let keys ← readKeys i t.rows
  return Groups.collect (keyedValues keys values)

theorem readCells_eq {rows : List (List String)} {i : Nat} (inside : ∀ row ∈ rows, i < row.length)
    (name : String) (number : Nat) :
    readCells name i number rows = known (numericCells name number (rows.map (·.getD i ""))) := by
  induction rows generalizing number with
  | nil => rfl
  | cons row rest inductionHypothesis =>
    obtain ⟨here, others⟩ := List.forall_mem_cons.1 inside
    rw [readCells, cell_eq here, ok_bind, inductionHypothesis others, List.map_cons, numericCells,
      ← known_bind]
    simp only [← known_bind]
    rfl

theorem readKeys_eq {rows : List (List String)} {i : Nat} (inside : ∀ row ∈ rows, i < row.length) :
    readKeys i rows = known (.ok (rows.map (·.getD i ""))) := by
  induction rows with
  | nil => rfl
  | cons row rest inductionHypothesis =>
    obtain ⟨here, others⟩ := List.forall_mem_cons.1 inside
    rw [readKeys, cell_eq here, inductionHypothesis others]
    rfl

theorem Rectangular.readColumn_eq {t : Table} (rectangular : t.Rectangular) (name : String) :
    t.readColumn name = known (t.optionalColumn name) := by
  unfold readColumn optionalColumn
  cases place : t.position name with
  | error e => rfl
  | ok i =>
    have inside : ∀ row ∈ t.rows, i < row.length := fun _ => rectangular.position_lt place
    exact readCells_eq inside name 1

theorem Rectangular.readGroups_eq {t : Table} (rectangular : t.Rectangular) (key value : String) :
    t.readGroups key value = known (t.groupBy key value) := by
  unfold readGroups groupBy
  cases place : t.position key with
  | error e => rfl
  | ok i =>
    have inside : ∀ row ∈ t.rows, i < row.length := fun _ => rectangular.position_lt place
    rw [ok_bind, rectangular.readColumn_eq, readKeys_eq inside]
    cases t.optionalColumn value <;> rfl

/-- What a table shows of itself: its header, the views of its columns and its groups. -/
structure Views where
  headers : List String
  optionalColumn : String → Except ColumnError (List (Option Binary64))
  groupBy : String → String → Except ColumnError Groups

def views (t : Table) : Views := ⟨t.headers, t.optionalColumn, t.groupBy⟩

theorem column_of_views (name : String) : (column · name).FactorsThrough views := by
  intro t u same
  have columns : t.optionalColumn = u.optionalColumn := congrArg Views.optionalColumn same
  simp only [column, columns]

theorem numericColumns_of_views : numericColumns.FactorsThrough views := by
  intro t u same
  have columns : t.optionalColumn = u.optionalColumn := congrArg Views.optionalColumn same
  have headers : t.headers = u.headers := congrArg Views.headers same
  rw [numericColumns, numericColumns, columns, headers]

theorem hasColumn_of_views (name : String) : (hasColumn · name).FactorsThrough views := by
  intro t u same
  have headers : t.headers = u.headers := congrArg Views.headers same
  simp only [hasColumn, position?, headers]

end Table

namespace Report

open Table

theorem groups_of_views (key value : String) : (groups · key value).FactorsThrough views := by
  intro t u same
  have grouped : t.groupBy = u.groupBy := congrArg Views.groupBy same
  simp only [groups, grouped]

theorem columns_of_views : (fun files : Table × Table => columns files.1 files.2).FactorsThrough
    (Prod.map views views) := by
  rintro ⟨first, second⟩ ⟨first', second'⟩ same
  have left := numericColumns_of_views (congrArg Prod.fst same)
  have right := numericColumns_of_views (congrArg Prod.snd same)
  simp only [columns, columnSummaries, left, right]

theorem total_of_views (name : String) :
    (fun files : Table × Table => total files.1 files.2 name).FactorsThrough
      (Prod.map views views) := by
  rintro ⟨first, second⟩ ⟨first', second'⟩ same
  have left : first.views = first'.views := congrArg Prod.fst same
  have right : second.views = second'.views := congrArg Prod.snd same
  have before := column_of_views name left
  have after := column_of_views name right
  have there := hasColumn_of_views name left
  have there' := hasColumn_of_views name right
  simp only at before after there there'
  simp only [total, before, after, there, there']

theorem measures_of_views (names : ProfileColumns) : (measures · names).FactorsThrough views := by
  intro t u same
  have columns : t.optionalColumn = u.optionalColumn := congrArg Views.optionalColumn same
  simp only [measures, columns]

theorem profiles_of_views (names : ProfileColumns) (oldLabel newLabel : String) :
    (fun files : Table × Table => profiles files.1 files.2 names oldLabel newLabel).FactorsThrough
      (Prod.map views views) := by
  rintro ⟨old, new⟩ ⟨old', new'⟩ same
  have before := measures_of_views names (congrArg Prod.fst same)
  have after := measures_of_views names (congrArg Prod.snd same)
  simp only at before after
  simp only [profiles, before, after]

end Report

namespace Table

/-- Adding a row appends exactly that row or leaves the table as it is.  So all tables that arise
keep their rows as wide as the header, a column that is found has a cell in every row, and reading a
column or grouping by one finds every cell it asks for.  Whatever else is taken of tables is taken
of these views. -/
theorem rows_fit_the_header :
    (∀ (t : Table) (row : List String),
      match t.push row with
      | .ok grown => grown = ⟨t.headers, t.rows ++ [row]⟩ ∧ t.afterPush row = grown
      | .error refusal =>
        refusal = ⟨t.headers.length, row.length⟩ ∧ row.length ≠ t.headers.length ∧
          t.afterPush row = t) ∧
    (∀ t : Table, t.Arises → t.Rectangular ∧
      (∀ name i, t.position name = .ok i → ∀ row ∈ t.rows, i < row.length) ∧
      (∀ name, t.readColumn name = some (t.optionalColumn name)) ∧
      ∀ key value, t.readGroups key value = some (t.groupBy key value)) ∧
    (∀ name, (column · name).FactorsThrough views) ∧
    numericColumns.FactorsThrough views ∧
    (∀ key value, (Report.groups · key value).FactorsThrough views) ∧
    (fun files : Table × Table => Report.columns files.1 files.2).FactorsThrough
      (Prod.map views views) ∧
    (∀ name, (fun files : Table × Table => Report.total files.1 files.2 name).FactorsThrough
      (Prod.map views views)) ∧
    ∀ names oldLabel newLabel, (fun files : Table × Table =>
      Report.profiles files.1 files.2 names oldLabel newLabel).FactorsThrough
        (Prod.map views views) := by
  refine ⟨?_, ?_, column_of_views, numericColumns_of_views, Report.groups_of_views,
    Report.columns_of_views, Report.total_of_views, Report.profiles_of_views⟩
  · intro t row
    by_cases fits : row.length = t.headers.length
    · rw [push_of_fits fits]
      exact ⟨rfl, afterPush_of_fits fits⟩
    · rw [push_of_misfit fits]
      exact ⟨rfl, fits, afterPush_of_misfit fits⟩
  · intro t arises
    have rectangular := arises.rectangular
    exact ⟨rectangular, fun name i place row member => rectangular.position_lt place member,
      rectangular.readColumn_eq, rectangular.readGroups_eq⟩

/-- A text with unnamed columns and a short row, a row that is refused and one that is added. -/
theorem rows_fit_the_header_unnamed :
    ((⟨["", "a", ""], [["1", "2", ""]]⟩ : Table).afterPush ["x"]).afterPush ["NA", "3", "y"] =
      ⟨["", "a", ""], [["1", "2", ""], ["NA", "3", "y"]]⟩ ∧
    Table.Arises ⟨["", "a", ""], [["1", "2", ""], ["NA", "3", "y"]]⟩ ∧
    readColumn ⟨["", "a", ""], [["1", "2", ""], ["NA", "3", "y"]]⟩ "" =
      some (.ok [some (.ofRat false 1), none]) := by
  have read : ofCsv? ",a,\n1,2\n" = .ok ⟨["", "a", ""], [["1", "2", ""]]⟩ := by decide +kernel
  have arises : Table.Arises ⟨["", "a", ""], [["1", "2", ""], ["NA", "3", "y"]]⟩ :=
    .push ["NA", "3", "y"] (.push ["x"] (.ofCsv read))
  have views := (rows_fit_the_header.2.1 _ arises).2.2.1 ""
  have values : optionalColumn ⟨["", "a", ""], [["1", "2", ""], ["NA", "3", "y"]]⟩ "" =
      .ok [some (.ofRat false 1), none] := by decide +kernel
  exact ⟨rfl, arises, views.trans (congrArg some values)⟩

end Table

end BenchStats
