import BenchStats.Proofs.Report.Profiles
import BenchStats.Proofs.Table.Positions
import BenchStats.Proofs.Table.Records
import BenchStats.Report.Groups
import BenchStats.Report.Total

/-!
# Headers of reports

Reports have fixed column names, and some of them have names that the caller gives besides: the
column that is grouped by, or the labels of two profiles.  A given name that meets a fixed one
stands in the header twice, and a record then loses the cell of the first of the two columns.  All
other headers are distinct.
-/

namespace BenchStats.Report

/-- The names in the header of a comparison of profiles that are not labels. -/
def profileNames : List String := ["Statistical Measure", "percent_difference"]

/-- The tables that reports return, each with whether a name that was given meets a fixed one. -/
inductive Returned : Prop → Table → Prop where
  | columns (first second : Table) : Returned False (columns first second)
  | total {first second : Table} {column : String} {report : Table} :
      total first second column = .ok report → Returned False report
  | groups {t : Table} {key value : String} {report : Table} :
      groups t key value = .ok report → Returned (key ∈ groupStatistics) report
  | histogram {collected : Groups} {bins : Nat} {report : Table} :
      histogram collected bins = .ok report → Returned False report
  | profiles {old new : Table} {names : ProfileColumns} {oldLabel newLabel : String}
      {report : Table} : profiles old new names oldLabel newLabel = .ok report →
      Returned (oldLabel ∈ profileNames ∨ newLabel ∈ profileNames) report

@[simp] theorem length_sideCells (summaries : List (String × Summary)) (name : String) :
    (sideCells summaries name).length = columnStatistics.length := by
  unfold sideCells
  split
  · rfl
  · exact List.length_map _

@[simp]
theorem rectangular_columns (first second : Table) : (columns first second).Rectangular := by
  intro row member
  obtain ⟨name, -, rfl⟩ := List.mem_map.1 member
  rw [List.length_cons, List.length_append, length_sideCells, length_sideCells]
  rfl

@[simp]
theorem nodup_headers_columns (first second : Table) : (columns first second).headers.Nodup := by
  show ("Column" :: sideLabels.flatMap fun side => columnStatistics.map fun statistic =>
    s!"{side} {statistic}").Nodup
  decide +kernel

theorem length_of_mem_zipWith {α β : Type} {f : α → β → List String} {width : Nat}
    (wide : ∀ a b, (f a b).length = width) {xs : List α} {ys : List β} {row : List String}
    (member : row ∈ List.zipWith f xs ys) : row.length = width := by
  obtain ⟨i, inside, rfl⟩ := List.getElem_of_mem member
  rw [List.getElem_zipWith]
  exact wide _ _

section

variable {report : Table}

/-- The comparison of two series. -/
def totalReport (before after : List Binary64) : Table :=
  ⟨"Statistic" :: (sideLabels ++ ["Percentage Difference (%)"]),
    List.zipWith
      (fun (name, a) (_, b) =>
        [name, Number.floatText a, Number.floatText b, Number.floatText (Series.percentChange a b)])
      (totalStatistics (Summary.ofSeries before)) (totalStatistics (Summary.ofSeries after))⟩

theorem total_eq_ok_iff {first second : Table} {column : String} :
    total first second column = .ok report ↔
      ∃ before after, first.column column = .ok before ∧ second.column column = .ok after ∧
        report = totalReport before after := by
  constructor
  · intro given
    unfold total at given
    split at given
    next => cases given
    next =>
      obtain ⟨before, read, given⟩ := bind_eq_ok given
      obtain ⟨after, read', given⟩ := bind_eq_ok given
      cases given
      exact ⟨before, after, ReportError.ofColumn_eq_ok_iff.1 read,
        ReportError.ofColumn_eq_ok_iff.1 read', rfl⟩
  · rintro ⟨before, after, read, read', rfl⟩
    rw [total, Table.hasColumn_of_column read, Table.hasColumn_of_column read', read, read']
    rfl

theorem total_eq_ok {first second : Table} {column : String}
    (given : total first second column = .ok report) :
    report.headers = "Statistic" :: (sideLabels ++ ["Percentage Difference (%)"]) ∧
      report.Rectangular := by
  obtain ⟨before, after, -, -, rfl⟩ := total_eq_ok_iff.1 given
  refine ⟨rfl, ?_⟩
  intro row member
  exact length_of_mem_zipWith (by rintro ⟨name, a⟩ ⟨_, b⟩; rfl) member

theorem groups_eq_ok {t : Table} {key value : String} (given : groups t key value = .ok report) :
    report.headers = key :: groupStatistics ∧ report.Rectangular := by
  obtain ⟨collected, -, given⟩ := bind_eq_ok given
  cases given
  refine ⟨rfl, ?_⟩
  intro row member
  obtain ⟨group, -, rfl⟩ := List.mem_map.1 member
  rfl

theorem histogram_eq_ok {collected : Groups} {bins : Nat}
    (given : histogram collected bins = .ok report) :
    report.headers = ["group", "bin", "lower", "upper", "count"] ∧ report.Rectangular := by
  unfold histogram at given
  split at given
  · cases given
  · cases given
    refine ⟨rfl, ?_⟩
    intro row member
    obtain ⟨⟨key, values⟩, -, inGroup⟩ := List.mem_flatMap.1 member
    obtain ⟨i, inside, rfl⟩ := List.mem_mapIdx.1 inGroup
    rfl

theorem profiles_eq_ok {old new : Table} {names : ProfileColumns} {oldLabel newLabel : String}
    (given : profiles old new names oldLabel newLabel = .ok report) :
    oldLabel ≠ newLabel ∧
      report.headers = ["Statistical Measure", oldLabel, newLabel, "percent_difference"] ∧
      report.Rectangular := by
  obtain ⟨different, before, after, -, -, rfl⟩ := profiles_eq_ok_iff.1 given
  refine ⟨different, rfl, ?_⟩
  intro row member
  exact length_of_mem_zipWith (by rintro ⟨name, a⟩ ⟨_, b⟩; rfl) member

end

@[simp] theorem nodup_headers_groups_iff (key : String) :
    (key :: groupStatistics).Nodup ↔ key ∉ groupStatistics := by
  have distinct : groupStatistics.Nodup := by decide
  rw [List.nodup_cons]
  exact and_iff_left distinct

theorem nodup_headers_profiles_iff {oldLabel newLabel : String} (different : oldLabel ≠ newLabel) :
    ["Statistical Measure", oldLabel, newLabel, "percent_difference"].Nodup ↔
      ¬ (oldLabel ∈ profileNames ∨ newLabel ∈ profileNames) := by
  have apart : "Statistical Measure" ≠ "percent_difference" := by decide
  simp only [List.nodup_cons, List.nodup_nil, List.mem_cons, List.not_mem_nil, or_false, not_or,
    profileNames]
  grind

theorem Returned.rectangular {clash : Prop} {report : Table} (returned : Returned clash report) :
    report.Rectangular := by
  cases returned with
  | columns first second => exact rectangular_columns first second
  | total given => exact (total_eq_ok given).2
  | groups given => exact (groups_eq_ok given).2
  | histogram given => exact (histogram_eq_ok given).2
  | profiles given => exact (profiles_eq_ok given).2.2

theorem Returned.nodup_headers_iff {clash : Prop} {report : Table}
    (returned : Returned clash report) : report.headers.Nodup ↔ ¬ clash := by
  cases returned with
  | columns first second => exact iff_of_true (nodup_headers_columns first second) not_false
  | total given =>
    rw [(total_eq_ok given).1]
    decide
  | groups given =>
    rw [(groups_eq_ok given).1]
    exact nodup_headers_groups_iff _
  | histogram given =>
    rw [(histogram_eq_ok given).1]
    decide
  | profiles given =>
    obtain ⟨different, headers, -⟩ := profiles_eq_ok given
    rw [headers]
    exact nodup_headers_profiles_iff different

/-- The header of a report is ambiguous only where a name that was given meets a fixed one.  Then,
if there are rows, their records lose a cell, and else they keep every cell under its header. -/
theorem headers_distinct_iff {clash : Prop} {report : Table} (returned : Returned clash report) :
    report.Rectangular ∧ (report.headers.Nodup ↔ ¬ clash) ∧
      (report.KeepsCells ↔ report.rows = [] ∨ ¬ clash) := by
  have rectangular := returned.rectangular
  have distinct := returned.nodup_headers_iff
  refine ⟨rectangular, distinct, ?_⟩
  rw [Table.keepsCells_iff rectangular, distinct]

/-- A profile of one run. -/
def oneRun : Table := ⟨["duration in microseconds", "visited nodes"], [["1", "2"]]⟩

theorem profiles_oneRun {oldLabel newLabel : String} (different : oldLabel ≠ newLabel) :
    ∃ report, profiles oneRun oneRun {} oldLabel newLabel = .ok report ∧ report.rows ≠ [] := by
  have duration : oneRun.optionalColumn "duration in microseconds" =
      .ok [some (.ofRat false 1)] := by decide +kernel
  have visited : oneRun.optionalColumn "visited nodes" = .ok [some (.ofRat false 2)] := by
    decide +kernel
  obtain ⟨first, others, measured⟩ :
      ∃ first others, measures oneRun {} = .ok (first :: others) := by
    unfold measures
    rw [duration, visited]
    exact ⟨_, _, rfl⟩
  unfold profiles
  rw [if_neg different, measured]
  exact ⟨_, rfl, List.cons_ne_nil _ _⟩

/-- Labels that meet no fixed name. -/
theorem headers_distinct_iff_plain_labels :
    ∃ report, profiles oneRun oneRun {} "old" "new" = .ok report ∧ report.headers.Nodup ∧
      report.KeepsCells := by
  obtain ⟨report, given, -⟩ := profiles_oneRun (by decide : "old" ≠ "new")
  obtain ⟨-, distinct, kept⟩ := headers_distinct_iff (.profiles given)
  have plain : ¬ ("old" ∈ profileNames ∨ "new" ∈ profileNames) := by decide
  exact ⟨report, given, distinct.2 plain, kept.2 (Or.inr plain)⟩

/-- A label that meets a fixed name is accepted.  The header then has this name twice, and no record
keeps the old value. -/
theorem not_headers_distinct_label :
    ∃ report, profiles oneRun oneRun {} "percent_difference" "new" = .ok report ∧
      ¬ report.headers.Nodup ∧ ¬ report.KeepsCells := by
  obtain ⟨report, given, nonempty⟩ := profiles_oneRun (by decide : "percent_difference" ≠ "new")
  have returned := Returned.profiles given
  have ambiguous : ¬ report.headers.Nodup := by
    rw [returned.nodup_headers_iff, not_not]
    decide
  refine ⟨report, given, ambiguous, ?_⟩
  rw [Table.keepsCells_iff returned.rectangular, not_or]
  exact ⟨nonempty, ambiguous⟩

end BenchStats.Report
