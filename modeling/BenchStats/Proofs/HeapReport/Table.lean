import BenchStats.HeapReport.Basic
import BenchStats.Proofs.Csv.RoundTrip
import BenchStats.Proofs.Number.Cells
import Mathlib.Data.List.OfFn
import Mathlib.Data.List.ReduceOption

/-!
# The table of a report

The table of a report survives being written and read, and every column of it gives the values of
the snapshots back: a column of integers exactly, any other one as floating-point numbers.
-/

namespace BenchStats

@[simp] theorem zipWith_ofFn {α β γ : Type} {n : Nat} (f : α → β → γ) (left : Fin n → α)
    (right : Fin n → β) :
    List.zipWith f (List.ofFn left) (List.ofFn right) =
      List.ofFn fun i => f (left i) (right i) := by
  refine List.ext_getElem (by simp) fun i _ _ => ?_
  simp

/-- The value of a snapshot in a column. -/
def Snapshot.valueAt (s : Snapshot) (column : Fin Snapshot.columns.length) : Number :=
  s.values.get column

theorem Snapshot.values_eq_ofFn (s : Snapshot) : s.values = List.ofFn s.valueAt := rfl

@[simp] theorem Snapshot.position?_columns (t : Table) (headers : t.headers = Snapshot.columns)
    (column : Fin Snapshot.columns.length) :
    t.position? Snapshot.columns[column] = some column := by
  rw [Table.position?, headers]
  revert column
  decide

namespace HeapReport

open Number

variable (report : HeapReport) (column : Fin Snapshot.columns.length)

def isFloatColumn : Bool :=
  report.snapshots.any fun snapshot => !(snapshot.valueAt column).isInt

theorem foldl_marks (snapshots : List Snapshot) (marks : Fin Snapshot.columns.length → Bool) :
    snapshots.foldl
      (fun marks snapshot =>
        List.zipWith (fun mark value => mark || !value.isInt) marks snapshot.values)
      (List.ofFn marks) =
    List.ofFn fun column =>
      marks column || snapshots.any fun snapshot => !(snapshot.valueAt column).isInt := by
  induction snapshots generalizing marks with
  | nil => simp
  | cons snapshot rest inductionHypothesis =>
    rw [List.foldl_cons, Snapshot.values_eq_ofFn, zipWith_ofFn, inductionHypothesis]
    simp only [List.any_cons, Bool.or_assoc]

theorem floatColumns_eq : report.floatColumns = List.ofFn report.isFloatColumn := by
  have unmarked : (Snapshot.columns.map fun _ => false) =
      List.ofFn fun _ : Fin Snapshot.columns.length => false := rfl
  rw [floatColumns, unmarked, foldl_marks]
  rfl

@[simp] theorem rows_toTable : report.toTable.rows = report.snapshots.map fun snapshot =>
    List.ofFn fun column => cellText (report.isFloatColumn column) (snapshot.valueAt column) := by
  simp only [toTable, floatColumns_eq, Snapshot.values_eq_ofFn, zipWith_ofFn]

theorem cellsAt_toTable : report.toTable.cellsAt column = report.snapshots.map fun snapshot =>
    cellText (report.isFloatColumn column) (snapshot.valueAt column) := by
  rw [Table.cellsAt, rows_toTable, List.map_map]
  refine List.map_congr_left fun snapshot _ => ?_
  simp

@[simp] theorem rectangular_toTable : report.toTable.Rectangular := by
  intro row member
  rw [rows_toTable] at member
  obtain ⟨snapshot, -, rfl⟩ := List.mem_map.1 member
  exact List.length_ofFn

@[simp] theorem foldlM_push_rows_toTable :
    report.toTable.rows.foldlM Table.push (Table.ofHeaders Snapshot.columns) =
      .ok report.toTable := by
  rw [Table.foldlM_push]
  · rfl
  · exact report.rectangular_toTable

@[simp] theorem ofCsv?_toCsv_toTable : Table.ofCsv? report.toTable.toCsv = .ok report.toTable := by
  rw [Table.ofCsv?_toCsv_eq_ok_iff report.rectangular_toTable,
    Table.recordText_ne_blank_iff report.rectangular_toTable]
  exact Or.inl (by decide : 2 ≤ Snapshot.columns.length)

@[simp] theorem read?_cellText_of_isInt {value : Number} (isInt : value.isInt = true) :
    Number.read? (cellText false value) = some value := by
  cases value with
  | int value => exact read?_intText value
  | float value => exact absurd isInt Bool.false_ne_true

@[simp] theorem cellText_of_isNaN {value : Number} (isNaN : value.toBinary64.isNaN = true) :
    cellText true value = "" := by
  rw [cellText, if_pos rfl]
  cases float : value.toBinary64 with
  | nan => rfl
  | infinite => simp [float, Binary64.isNaN] at isNaN
  | finite => simp [float, Binary64.isNaN] at isNaN

theorem read?_cellText_of_not_isNaN {value : Number}
    (isNumber : value.toBinary64.isNaN = false) :
    Number.read? (cellText true value) = some (.float value.toBinary64) := by
  rw [cellText, if_pos rfl]
  exact read?_cellText rfl isNumber

theorem numericCell_cellText {asFloat : Bool} {value : Number}
    (told : asFloat = false → value.isInt = true) (name : String) (row : Nat) :
    Table.numericCell name row (cellText asFloat value) =
      .ok (if value.toBinary64.isNaN then none else some value.toBinary64) := by
  cases asFloat with
  | false =>
    have isNumber := isNaN_of_isInt (told rfl)
    rw [Table.numericCell_of_read? name row (read?_cellText_of_isInt (told rfl)) isNumber, isNumber]
    rfl
  | true =>
    cases isNaN : value.toBinary64.isNaN with
    | true =>
      rw [cellText_of_isNaN isNaN, Table.numericCell, if_pos (by decide)]
      rfl
    | false =>
      rw [Table.numericCell_of_read? name row (read?_cellText_of_not_isNaN isNaN) isNaN]
      rfl

theorem isInt_of_not_isFloatColumn {snapshot : Snapshot} (member : snapshot ∈ report.snapshots)
    (notFloat : report.isFloatColumn column = false) :
    (snapshot.valueAt column).isInt = true := by
  have each := List.any_eq_false.1 notFloat snapshot member
  simpa using each

@[simp] theorem column_toTable :
    report.toTable.column Snapshot.columns[column] =
      .ok ((report.snapshots.map fun snapshot => (snapshot.valueAt column).toBinary64).filter
        fun value => !value.isNaN) := by
  have position := Snapshot.position?_columns report.toTable rfl column
  have cells : Table.numericCells Snapshot.columns[column] 1 (report.toTable.cellsAt column) =
      .ok (report.snapshots.map fun snapshot =>
        if (snapshot.valueAt column).toBinary64.isNaN then none
        else some (snapshot.valueAt column).toBinary64) := by
    refine Table.numericCells_eq_ok ?_ 1
    rw [cellsAt_toTable, List.forall₂_map_left_iff, List.forall₂_map_right_iff,
      List.forall₂_same]
    intro snapshot member row
    refine numericCell_cellText (fun notFloat => ?_) _ row
    exact report.isInt_of_not_isFloatColumn column member notFloat
  rw [Table.column, Table.optionalColumn, Table.position, position]
  refine (congrArg (Except.map _) cells).trans (congrArg Except.ok ?_)
  induction report.snapshots with
  | nil => rfl
  | cons snapshot rest inductionHypothesis =>
    cases isNaN : (snapshot.valueAt column).toBinary64.isNaN with
    | true => simpa [isNaN, List.reduceOption_cons_of_none] using inductionHypothesis
    | false => simpa [isNaN, List.reduceOption_cons_of_some] using inductionHypothesis

theorem isFloatColumn_eq_false
    (allInt : ∀ snapshot ∈ report.snapshots, (snapshot.valueAt column).isInt = true) :
    report.isFloatColumn column = false := by
  refine List.any_eq_false.2 fun snapshot member => ?_
  simp [allInt snapshot member]

theorem isFloatColumn_eq_true
    (someFloat : ∃ snapshot ∈ report.snapshots, (snapshot.valueAt column).isInt = false) :
    report.isFloatColumn column = true := by
  obtain ⟨snapshot, member, float⟩ := someFloat
  exact List.any_eq_true.2 ⟨snapshot, member, by simp [float]⟩

/-- The table of a report can be built row by row and survives being written and read.  A column of
integers gives each of them back exactly.  In any other column a cell is empty where the value is
not-a-number, and is read as the floating-point number of its value elsewhere. -/
theorem toTable_reread :
    report.toTable.rows.foldlM Table.push (Table.ofHeaders Snapshot.columns) =
      .ok report.toTable ∧
    Table.ofCsv? report.toTable.toCsv = .ok report.toTable ∧
    report.toTable.headers = Snapshot.columns ∧
    report.toTable.rows.length = report.snapshots.length ∧
    ∀ column : Fin Snapshot.columns.length,
      ((∀ snapshot ∈ report.snapshots, (snapshot.valueAt column).isInt = true) →
        List.Forall₂
          (fun snapshot cell => Number.read? cell = some (snapshot.valueAt column))
          report.snapshots (report.toTable.cellsAt column)) ∧
      ((∃ snapshot ∈ report.snapshots, (snapshot.valueAt column).isInt = false) →
        List.Forall₂
          (fun snapshot cell =>
            if (snapshot.valueAt column).toBinary64.isNaN then cell = ""
            else Number.read? cell = some (.float (snapshot.valueAt column).toBinary64))
          report.snapshots (report.toTable.cellsAt column)) ∧
      report.toTable.column Snapshot.columns[column] =
        .ok ((report.snapshots.map fun snapshot => (snapshot.valueAt column).toBinary64).filter
          fun value => !value.isNaN) := by
  refine ⟨report.foldlM_push_rows_toTable, report.ofCsv?_toCsv_toTable, rfl, ?_, ?_⟩
  · simp
  intro column
  refine ⟨fun allInt => ?_, fun someFloat => ?_, report.column_toTable column⟩
  · rw [cellsAt_toTable, report.isFloatColumn_eq_false column allInt, List.forall₂_map_right_iff,
      List.forall₂_same]
    intro snapshot member
    exact read?_cellText_of_isInt (allInt snapshot member)
  · rw [cellsAt_toTable, report.isFloatColumn_eq_true column someFloat,
      List.forall₂_map_right_iff, List.forall₂_same]
    intro snapshot member
    split
    next isNaN => exact cellText_of_isNaN isNaN
    next isNumber => exact read?_cellText_of_not_isNaN (Bool.not_eq_true _ ▸ isNumber)

/-- A column with an integer, not-a-number and an infinity in it is read as the two numbers. -/
theorem toTable_reread_mixed :
    (⟨[⟨.int 1, .int 0, .int 0, .int 0, .int 0, .int 0⟩,
      ⟨.int 2, .float .nan, .int 0, .int 0, .int 0, .int 0⟩,
      ⟨.int 3, .float (.infinite true), .int 0, .int 0, .int 0, .int 0⟩]⟩ :
        HeapReport).toTable.column "time(i)" = .ok [.zero, .infinite true] :=
  ((toTable_reread _).2.2.2.2 ⟨1, by decide⟩).2.2

end HeapReport

end BenchStats
