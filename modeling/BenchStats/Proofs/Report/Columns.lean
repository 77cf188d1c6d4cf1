import BenchStats.Proofs.Distinct
import BenchStats.Proofs.Table.NumericColumns
import BenchStats.Report.Columns

/-!
# The rows of side-by-side statistics

The report has a row for every numeric column of the first table and for every name that only the
second one has.  Names of the second table are taken once, while a name that the first one repeats
has as many rows as it has numeric columns of that name.  Either side of a row has the statistics of
the column of that name, or empty cells where there is no such numeric column.
-/

namespace BenchStats

namespace Report

open Table

theorem addNames_concat (names more : List String) (name : String) :
    addNames names (more ++ [name]) =
      if name ∈ addNames names more then addNames names more
      else addNames names more ++ [name] := by
  rw [addNames, List.foldl_append]
  rfl

theorem addNames_eq (names more : List String) :
    addNames names more = names ++ (more.filter fun name => name ∉ names).eraseDups := by
  induction more using List.reverseRecOn with
  | nil => simp [addNames]
  | append_singleton more name inductionHypothesis =>
    rw [addNames_concat, inductionHypothesis, List.filter_append]
    by_cases inNames : name ∈ names
    · simp [inNames]
    · have kept : [name].filter (fun name => name ∉ names) = [name] := by simp [inNames]
      rw [kept, eraseDups_concat]
      by_cases inMore : name ∈ more
      · simp [inNames, inMore]
      · simp [inNames, inMore]

@[simp] theorem nodup_addNames_iff (names more : List String) :
    (addNames names more).Nodup ↔ names.Nodup := by
  rw [addNames_eq, List.nodup_append]
  constructor
  · exact fun distinct => distinct.1
  · intro distinct
    refine ⟨distinct, nodup_eraseDups _, ?_⟩
    rintro name old _ new rfl
    have apart := (List.mem_filter.1 (List.mem_eraseDups.1 new)).2
    exact of_decide_eq_true apart old

/-- What one side of a row shows of a table under a name: the statistics of its numeric column of
that name, or as many empty cells. -/
structure SideShows (t : Table) (name : String) (cells : List String) : Prop where
  numeric : ∀ values, (name, values) ∈ t.numericColumns → cells = [
    Number.floatText (Summary.ofSeries values).mean,
    Number.floatText (Summary.ofSeries values).median,
    Number.floatText (Summary.ofSeries values).deviation,
    Number.floatText (Summary.ofSeries values).least,
    Number.floatText (Summary.ofSeries values).greatest,
    Number.floatText (Summary.ofSeries values).lowerQuartile,
    Number.floatText (Summary.ofSeries values).upperQuartile]
  absent : name ∉ t.numericNames → cells = List.replicate 7 ""

@[simp] theorem map_fst_columnSummaries (t : Table) :
    (columnSummaries t).map Prod.fst = t.numericNames := by
  rw [columnSummaries, List.map_map]
  rfl

theorem exists_of_lookup {t : Table} {name : String} {summary : Summary}
    (found : (columnSummaries t).lookup name = some summary) :
    ∃ values, (name, values) ∈ t.numericColumns ∧ summary = Summary.ofSeries values := by
  obtain ⟨before, after, cut, -⟩ := List.lookup_eq_some_iff.1 found
  have member : (name, summary) ∈ columnSummaries t := by
    rw [cut]
    exact List.mem_append_right _ List.mem_cons_self
  obtain ⟨⟨other, values⟩, inColumns, same⟩ := List.mem_map.1 member
  cases same
  exact ⟨values, inColumns, rfl⟩

theorem sideShows_sideCells (t : Table) (name : String) :
    SideShows t name (sideCells (columnSummaries t) name) := by
  unfold sideCells
  split
  next summary found =>
    obtain ⟨values, inColumns, rfl⟩ := exists_of_lookup found
    refine ⟨fun others inColumns' => ?_, fun absent => ?_⟩
    · have numeric := (mem_numericColumns_iff.1 inColumns).2
      have numeric' := (mem_numericColumns_iff.1 inColumns').2
      cases numeric.symm.trans numeric'
      rfl
    · exact absurd (List.mem_map_of_mem inColumns) absent
  next missing =>
    refine ⟨fun values inColumns => ?_, fun _ => rfl⟩
    have inSummaries : (name, Summary.ofSeries values) ∈ columnSummaries t :=
      List.mem_map_of_mem (f := fun column => (column.1, Summary.ofSeries column.2)) inColumns
    have different := List.lookup_eq_none_iff.1 missing _ inSummaries
    simp at different

@[simp] theorem cellsAt_columns (first second : Table) : (columns first second).cellsAt 0 =
    addNames first.numericNames second.numericNames := by
  rw [cellsAt, columns, map_fst_columnSummaries, map_fst_columnSummaries, List.map_map]
  exact List.map_id _

/-- The first cells of the rows are the names of the numeric columns of the first table and then
those that only the second one has, each of these once.  So they are distinct exactly if the numeric
columns of the first table have distinct names, as they have where its header is distinct.  The
other cells of a row are what both tables show under its name. -/
theorem columns_row_per_name (first second : Table) :
    (columns first second).cellsAt 0 = first.numericNames ++
      (second.numericNames.filter fun name => name ∉ first.numericNames).eraseDups ∧
    (((columns first second).cellsAt 0).Nodup ↔ first.numericNames.Nodup) ∧
    (first.headers.Nodup → ((columns first second).cellsAt 0).Nodup) ∧
    ∀ row ∈ (columns first second).rows, ∃ name left right, row = name :: (left ++ right) ∧
      SideShows first name left ∧ SideShows second name right := by
  have distinct := nodup_addNames_iff first.numericNames second.numericNames
  rw [cellsAt_columns]
  refine ⟨addNames_eq _ _, distinct, ?_, ?_⟩
  · intro header
    rw [distinct, numericNames_eq]
    exact header.filter _
  · intro row member
    obtain ⟨name, -, rfl⟩ := List.mem_map.1 member
    exact ⟨name, _, _, rfl, sideShows_sideCells first name, sideShows_sideCells second name⟩

/-- A column of numbers and one of texts. -/
def labelledTable : Table := ⟨["x", "label"], [["1", "a"], ["3", "b"]]⟩

/-- A table that repeats a name, besides one of the other table. -/
def repeatingTable : Table := ⟨["y", "x", "y"], [["10", "2", "7"], ["NA", "5", "8"]]⟩

theorem columns_row_per_name_repeating :
    (columns labelledTable repeatingTable).cellsAt 0 = ["x", "y"] ∧
      ((columns labelledTable repeatingTable).cellsAt 0).Nodup ∧
      ∃ left right, "y" :: (left ++ right) ∈ (columns labelledTable repeatingTable).rows ∧
        left = List.replicate 7 "" ∧ right = [
          Number.floatText (Summary.ofSeries [.ofNat 10]).mean,
          Number.floatText (Summary.ofSeries [.ofNat 10]).median,
          Number.floatText (Summary.ofSeries [.ofNat 10]).deviation,
          Number.floatText (Summary.ofSeries [.ofNat 10]).least,
          Number.floatText (Summary.ofSeries [.ofNat 10]).greatest,
          Number.floatText (Summary.ofSeries [.ofNat 10]).lowerQuartile,
          Number.floatText (Summary.ofSeries [.ofNat 10]).upperQuartile] := by
  have leftColumns : labelledTable.numericColumns = [("x", [.ofNat 1, .ofNat 3])] := by
    decide +kernel
  have rightColumns : repeatingTable.numericColumns =
      [("y", [.ofNat 10]), ("x", [.ofNat 2, .ofNat 5]), ("y", [.ofNat 10])] := by decide +kernel
  obtain ⟨names, -, distinct, sides⟩ := columns_row_per_name labelledTable repeatingTable
  have both : (columns labelledTable repeatingTable).cellsAt 0 = ["x", "y"] := by
    rw [names, numericNames, numericNames, leftColumns, rightColumns]
    decide +kernel
  have inFirst : "y" ∈ (columns labelledTable repeatingTable).cellsAt 0 := by
    rw [both]
    decide
  obtain ⟨row, member, cell⟩ := List.mem_map.1 inFirst
  obtain ⟨name, left, right, rfl, leftShows, rightShows⟩ := sides row member
  cases cell
  have absent : "y" ∉ labelledTable.numericNames := by
    rw [numericNames, leftColumns]
    decide
  have present : ("y", [.ofNat 10]) ∈ repeatingTable.numericColumns := by
    rw [rightColumns]
    exact List.mem_cons_self
  exact ⟨both, distinct (by decide), left, right, member, leftShows.absent absent,
    rightShows.numeric _ present⟩

/-- A table with two numeric columns of one name has two rows of that name. -/
theorem not_columns_row_per_name_repeated :
    ¬ ∀ first second : Table, ((columns first second).cellsAt 0).Nodup := by
  intro distinct
  have names : numericNames ⟨["x", "x"], [["1", "1"]]⟩ = ["x", "x"] := by
    have found : numericColumns ⟨["x", "x"], [["1", "1"]]⟩ =
        [("x", [.ofNat 1]), ("x", [.ofNat 1])] := by decide +kernel
    rw [numericNames, found]
    rfl
  have rows := distinct ⟨["x", "x"], [["1", "1"]]⟩ ⟨["y"], [["1"]]⟩
  rw [cellsAt_columns, nodup_addNames_iff, names] at rows
  exact absurd rows (by decide)

end Report

end BenchStats
