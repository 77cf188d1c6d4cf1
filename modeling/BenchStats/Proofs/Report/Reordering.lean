import BenchStats.Proofs.Series.Ascending
import BenchStats.Report.Total

/-!
# Statistics do not depend on the order

A summary is taken of the sorted numbers, so entries in another order and entries that are
not-a-number leave every statistic as it is, to the last bit.  A report on a table with its rows in
another order is the same report.
-/

namespace BenchStats

/-- Where every entry is accepted, the results come in the order of the entries. -/
theorem mapM_perm {α β : Type} (f : α → Option β) {xs ys : List α} (perm : xs.Perm ys) :
    Option.Rel List.Perm (xs.mapM f) (ys.mapM f) := by
  induction perm with
  | nil => exact Option.Rel.some (List.Perm.refl _)
  | @cons x before after _ inductionHypothesis =>
    rw [List.mapM_cons, List.mapM_cons]
    generalize before.mapM f = values at inductionHypothesis ⊢
    generalize after.mapM f = values' at inductionHypothesis ⊢
    cases f x with
    | none => exact Option.Rel.none
    | some y =>
      cases inductionHypothesis with
      | none => exact Option.Rel.none
      | some perm => exact Option.Rel.some (perm.cons y)
  | swap x y rest =>
    simp only [List.mapM_cons]
    cases f x with
    | none => cases f y <;> exact Option.Rel.none
    | some a =>
      cases f y with
      | none => exact Option.Rel.none
      | some b =>
        cases rest.mapM f with
        | none => exact Option.Rel.none
        | some values => exact Option.Rel.some (List.Perm.swap a b values)
  | @trans before between after _ _ first second =>
    generalize before.mapM f = values at first ⊢
    generalize between.mapM f = values' at first second
    generalize after.mapM f = values'' at second ⊢
    cases first with
    | none =>
      cases second
      exact Option.Rel.none
    | some perm =>
      cases second with
      | some perm' => exact Option.Rel.some (perm.trans perm')

theorem cases_of_toOption {ε α : Type} {r : α → α → Prop} {x y : Except ε α}
    (related : Option.Rel r x.toOption y.toOption) :
    (∃ e e', x = .error e ∧ y = .error e') ∨ ∃ a b, x = .ok a ∧ y = .ok b ∧ r a b := by
  cases x with
  | error e =>
    cases y with
    | error e' => exact Or.inl ⟨e, e', rfl, rfl⟩
    | ok b => cases related
  | ok a =>
    cases y with
    | error e => cases related
    | ok b =>
      cases related with
      | some same => exact Or.inr ⟨a, b, rfl, rfl, same⟩

namespace Summary

theorem ofSeries_eq_of_perm {values other : List Binary64}
    (same : (values.filter (!·.isNaN)).Perm (other.filter (!·.isNaN))) :
    ofSeries values = ofSeries other := by
  rw [ofSeries, ofSeries, Series.sorted_eq_of_perm same]

end Summary

namespace Table

/-- The same columns with the rows in another order. -/
structure Reordered (t u : Table) : Prop where
  headers : t.headers = u.headers
  rows : t.rows.Perm u.rows

/-- What a cell holds in a numeric column, if it can stand in one. -/
def cellValue? (cell : String) : Option (Option Binary64) := (numericCell "" 0 cell).toOption

@[simp] theorem toOption_numericCell (column : String) (row : Nat) (cell : String) :
    (numericCell column row cell).toOption = cellValue? cell := by
  unfold cellValue? numericCell
  split
  next => rfl
  next => split <;> rfl

@[simp] theorem toOption_numericCells (column : String) (row : Nat) (cells : List String) :
    (numericCells column row cells).toOption = cells.mapM cellValue? := by
  induction cells generalizing row with
  | nil => rfl
  | cons cell rest inductionHypothesis =>
    rw [numericCells, List.mapM_cons, ← toOption_numericCell column row,
      ← inductionHypothesis (row + 1)]
    cases numericCell column row cell with
    | error e => rfl
    | ok value => cases numericCells column (row + 1) rest <;> rfl

namespace Reordered

variable {t u : Table} (reordered : Reordered t u)

include reordered

theorem position?_eq (name : String) : t.position? name = u.position? name := by
  rw [position?, position?, reordered.headers]

theorem optionalColumn (name : String) :
    Option.Rel List.Perm (t.optionalColumn name).toOption (u.optionalColumn name).toOption := by
  unfold Table.optionalColumn Table.position
  rw [reordered.position?_eq name]
  cases u.position? name with
  | none => exact Option.Rel.none
  | some i =>
    have cells : (t.cellsAt i).Perm (u.cellsAt i) := reordered.rows.map _
    show Option.Rel _ (numericCells name 1 (t.cellsAt i)).toOption
      (numericCells name 1 (u.cellsAt i)).toOption
    rw [toOption_numericCells, toOption_numericCells]
    exact mapM_perm cellValue? cells

theorem column (name : String) :
    Option.Rel List.Perm (t.column name).toOption (u.column name).toOption := by
  unfold Table.column
  rcases cases_of_toOption (reordered.optionalColumn name) with
    ⟨e, e', failed, failed'⟩ | ⟨values, values', read, read', perm⟩
  · rw [failed, failed']
    exact Option.Rel.none
  · rw [read, read']
    exact Option.Rel.some (perm.filterMap id)

end Reordered

end Table

namespace Report

theorem columnSummaries_eq_of_reordered {t u : Table} (reordered : t.Reordered u) :
    columnSummaries t = columnSummaries u := by
  unfold columnSummaries Table.numericColumns
  rw [List.map_filterMap, List.map_filterMap, reordered.headers]
  refine List.filterMap_congr fun name _ => ?_
  rcases cases_of_toOption (reordered.optionalColumn name) with
    ⟨e, e', failed, failed'⟩ | ⟨values, values', read, read', perm⟩
  · rw [failed, failed']
  · have numbers : values.reduceOption.Perm values'.reduceOption := perm.filterMap id
    have missing : values.all Option.isNone = values'.all Option.isNone := perm.all_eq
    have summaries := Summary.ofSeries_eq_of_perm (numbers.filter (!·.isNaN))
    rw [read, read']
    simp only [missing]
    split
    next => rfl
    next => simp only [Option.map_some, summaries]

theorem columns_eq_of_reordered {first second first' second' : Table}
    (left : first'.Reordered first) (right : second'.Reordered second) :
    columns first' second' = columns first second := by
  unfold columns
  rw [columnSummaries_eq_of_reordered left, columnSummaries_eq_of_reordered right]

theorem toOption_total_eq_of_reordered {first second first' second' : Table}
    (left : first'.Reordered first) (right : second'.Reordered second) (column : String) :
    (total first' second' column).toOption = (total first second column).toOption := by
  unfold total Table.hasColumn
  rw [left.position?_eq, right.position?_eq]
  split
  next => rfl
  next =>
    rcases cases_of_toOption (left.column column) with
      ⟨e, e', failed, failed'⟩ | ⟨before, before', read, read', perm⟩
    · rw [failed, failed']
      rfl
    rcases cases_of_toOption (right.column column) with
      ⟨e, e', failed, failed'⟩ | ⟨after, after', readAfter, readAfter', permAfter⟩
    · rw [read, read', failed, failed']
      rfl
    · rw [read, read', readAfter, readAfter']
      show some _ = some _
      rw [Summary.ofSeries_eq_of_perm (perm.filter (!·.isNaN)),
        Summary.ofSeries_eq_of_perm (permAfter.filter (!·.isNaN))]

/-- Statistics do not change, to the last bit, when a series comes in another order or when
not-a-number entries are added or left out.  So reports on two tables do not change when the rows
of the tables come in another order; where one fails, the other does. -/
theorem statistics_order_independent :
    (∀ (values other : List Binary64) (left added : Nat),
      (other ++ List.replicate left Binary64.nan).Perm
        (values ++ List.replicate added Binary64.nan) →
      Summary.ofSeries other = Summary.ofSeries values) ∧
    (∀ (first second : Table) (rows rows' : List (List String)),
      rows.Perm first.rows → rows'.Perm second.rows →
      columns ⟨first.headers, rows⟩ ⟨second.headers, rows'⟩ = columns first second) ∧
    ∀ (first second : Table) (rows rows' : List (List String)) (column : String),
      rows.Perm first.rows → rows'.Perm second.rows →
      (total ⟨first.headers, rows⟩ ⟨second.headers, rows'⟩ column).toOption =
        (total first second column).toOption := by
  refine ⟨?_, ?_, ?_⟩
  · intro values other left added perm
    apply Summary.ofSeries_eq_of_perm
    have missing (count : Nat) :
        (List.replicate count Binary64.nan).filter (!·.isNaN) = [] := by
      simp [Binary64.isNaN]
    simpa [missing] using perm.filter (!·.isNaN)
  · intro first second rows rows' perm perm'
    have left : Table.Reordered ⟨first.headers, rows⟩ first := ⟨rfl, perm⟩
    have right : Table.Reordered ⟨second.headers, rows'⟩ second := ⟨rfl, perm'⟩
    exact columns_eq_of_reordered left right
  · intro first second rows rows' column perm perm'
    have left : Table.Reordered ⟨first.headers, rows⟩ first := ⟨rfl, perm⟩
    have right : Table.Reordered ⟨second.headers, rows'⟩ second := ⟨rfl, perm'⟩
    exact toOption_total_eq_of_reordered left right column

/-- Both zeros, an infinity and a missing value come in another order, in a series and in the
tables of two reports. -/
theorem statistics_order_independent_zeros :
    Summary.ofSeries [.zero, .infinite false, .negativeZero] =
      Summary.ofSeries [.nan, .negativeZero, .zero, .infinite false] ∧
    columns ⟨["x"], [["-0"], ["inf"], [""]]⟩ ⟨["x"], [["2"], ["0.5"]]⟩ =
      columns ⟨["x"], [["inf"], [""], ["-0"]]⟩ ⟨["x"], [["0.5"], ["2"]]⟩ ∧
    (total ⟨["x"], [["-0"], ["inf"], [""]]⟩ ⟨["x"], [["2"], ["0.5"]]⟩ "x").toOption =
      (total ⟨["x"], [["inf"], [""], ["-0"]]⟩ ⟨["x"], [["0.5"], ["2"]]⟩ "x").toOption := by
  refine ⟨statistics_order_independent.1 _ _ 1 0 (by decide), ?_, ?_⟩
  · exact statistics_order_independent.2.1 ⟨["x"], [["inf"], [""], ["-0"]]⟩
      ⟨["x"], [["0.5"], ["2"]]⟩ _ _ (by decide) (by decide)
  · exact statistics_order_independent.2.2 ⟨["x"], [["inf"], [""], ["-0"]]⟩
      ⟨["x"], [["0.5"], ["2"]]⟩ _ _ "x" (by decide) (by decide)

end Report

end BenchStats
