import BenchStats.Proofs.Report.Exchange
import BenchStats.Proofs.Table.NumericColumns

/-!
# The correlation of the complete runs

The columns of a profile are read row by row, so their entries stay side by side.  The correlation
in a comparison of profiles therefore depends on the runs with both values alone: deleting others
changes nothing about it.
-/

namespace BenchStats

namespace Table

theorem optionalColumn_eq_ok_iff {t : Table} {name : String} {values : List (Option Binary64)} :
    t.optionalColumn name = .ok values ↔ ∃ i, t.position name = .ok i ∧
      (∀ cell ∈ t.cellsAt i, isVoid cell = false → (Number.read? cell).isSome = true) ∧
      values = (t.cellsAt i).map cellNumber? := by
  constructor
  · intro read
    obtain ⟨i, place, read⟩ := bind_eq_ok read
    exact ⟨i, place, numericCells_eq_ok_iff.1 read⟩
  · rintro ⟨i, place, cells⟩
    rw [optionalColumn, place]
    exact numericCells_eq_ok_iff.2 cells

/-- Whether a row holds something in a column. -/
def holdsIn (t : Table) (name : String) (row : List String) : Bool :=
  (t.position? name).any fun i => !isVoid (row.getD i "")

/-- Whether a row of a profile has both values. -/
def isCompleteRun (t : Table) (names : ProfileColumns) (row : List String) : Bool :=
  t.holdsIn names.duration row && t.holdsIn names.visited row

/-- A profile without some of the rows that lack a value, up to all of them. -/
structure Thinned (names : ProfileColumns) (t u : Table) : Prop where
  headers : u.headers = t.headers
  rows : u.rows.Sublist t.rows
  complete : u.rows.filter (t.isCompleteRun names) = t.rows.filter (t.isCompleteRun names)

/-- The complete runs of a profile. -/
def completeRuns (t : Table) (names : ProfileColumns) : Table :=
  ⟨t.headers, t.rows.filter (t.isCompleteRun names)⟩

theorem thinned_completeRuns (t : Table) (names : ProfileColumns) :
    Thinned names t (t.completeRuns names) :=
  ⟨rfl, List.filter_sublist, by simp [completeRuns]⟩

/-- The value of a row in the column at a position. -/
def valueAt (i : Nat) (row : List String) : Option Binary64 := cellNumber? (row.getD i "")

variable {names : ProfileColumns} {t u : Table}

theorem Thinned.optionalColumn (thinned : Thinned names t u) {name : String}
    {values : List (Option Binary64)} (read : t.optionalColumn name = .ok values) :
    ∃ i, t.position name = .ok i ∧ values = t.rows.map (valueAt i) ∧
      u.optionalColumn name = .ok (u.rows.map (valueAt i)) := by
  obtain ⟨i, place, fits, rfl⟩ := optionalColumn_eq_ok_iff.1 read
  have samePlace : u.position name = .ok i := by
    rw [← place, position, position, position?, position?, thinned.headers]
  have fewer : ∀ cell ∈ u.cellsAt i, cell ∈ t.cellsAt i := (thinned.rows.map _).subset
  refine ⟨i, place, List.map_map, optionalColumn_eq_ok_iff.2 ⟨i, samePlace, ?_, ?_⟩⟩
  · exact fun cell member => fits cell (fewer cell member)
  · exact List.map_map.symm

theorem valueAt_of_not_holdsIn {name : String} {i : Nat} (place : t.position name = .ok i)
    {row : List String} (lacks : t.holdsIn name row = false) : valueAt i row = none := by
  rw [holdsIn, position?_of_position place, Option.any_some, Bool.not_eq_false'] at lacks
  rw [valueAt, cellNumber?, if_pos lacks]

theorem completePairs_columns {i j : Nat} (duration : t.position names.duration = .ok i)
    (visited : t.position names.visited = .ok j) (rows : List (List String)) :
    Series.completePairs (rows.map (valueAt i)) (rows.map (valueAt j)) =
      (rows.filter (t.isCompleteRun names)).filterMap
        fun row => Series.completePair? (valueAt i row, valueAt j row) := by
  rw [Series.completePairs_eq, List.zip_map', List.filterMap_map, List.filterMap_filter]
  refine List.filterMap_congr fun row _ => ?_
  split
  next => rfl
  next lacks =>
    apply Series.completePair?_eq_none_iff.2
    rw [Bool.not_eq_true, isCompleteRun, Bool.and_eq_false_iff] at lacks
    exact lacks.imp (fun noDuration => Or.inl (valueAt_of_not_holdsIn duration noDuration))
      fun noCount => Or.inl (valueAt_of_not_holdsIn visited noCount)

theorem Thinned.correlation (thinned : Thinned names t u)
    {duration visited : List (Option Binary64)}
    (readDuration : t.optionalColumn names.duration = .ok duration)
    (readVisited : t.optionalColumn names.visited = .ok visited) :
    ∃ duration' visited', u.optionalColumn names.duration = .ok duration' ∧
      u.optionalColumn names.visited = .ok visited' ∧
      Series.correlation duration' visited' = Series.correlation duration visited := by
  obtain ⟨i, durationPlace, rfl, durationRead⟩ := thinned.optionalColumn readDuration
  obtain ⟨j, visitedPlace, rfl, visitedRead⟩ := thinned.optionalColumn readVisited
  refine ⟨_, _, durationRead, visitedRead, ?_⟩
  rw [Series.correlation, Series.correlation, completePairs_columns durationPlace visitedPlace,
    completePairs_columns durationPlace visitedPlace, thinned.complete]

end Table

namespace Report

open Series

/-- The cells of the correlation do not change when runs without both values are deleted. -/
theorem correlationRow_of_thinned {old old' new new' report : Table} {names : ProfileColumns}
    {oldLabel newLabel : String} (left : Table.Thinned names old old')
    (right : Table.Thinned names new new')
    (given : profiles old new names oldLabel newLabel = .ok report) :
    ∃ report' a b, profiles old' new' names oldLabel newLabel = .ok report' ∧
      report.rows.getLast? = some (correlationRow a b) ∧
      report'.rows.getLast? = some (correlationRow a b) := by
  obtain ⟨duration, visited, durationNew, visitedNew, readDuration, readVisited, readDurationNew,
    readVisitedNew, last⟩ := getLast?_profiles given
  obtain ⟨_, _, durationRead, visitedRead, same⟩ := left.correlation readDuration readVisited
  obtain ⟨_, _, durationReadNew, visitedReadNew, sameNew⟩ :=
    right.correlation readDurationNew readVisitedNew
  have different := (profiles_eq_ok_iff.1 given).1
  obtain ⟨report', given'⟩ := exists_profiles_iff.2
    ⟨different, ⟨_, _, durationRead, visitedRead⟩, ⟨_, _, durationReadNew, visitedReadNew⟩⟩
  obtain ⟨_, _, _, _, durationRead', visitedRead', durationReadNew', visitedReadNew', last'⟩ :=
    getLast?_profiles given'
  cases durationRead.symm.trans durationRead'
  cases visitedRead.symm.trans visitedRead'
  cases durationReadNew.symm.trans durationReadNew'
  cases visitedReadNew.symm.trans visitedReadNew'
  rw [same, sameNew] at last'
  exact ⟨report', _, _, given', last, last'⟩

/-- A correlation is the same for exchanged sides, and pairs that are not complete neither add to it
nor are missed.  So the cells of the correlation in a comparison of profiles stay as they are when
rows without a duration or without a count are deleted from the profiles. -/
theorem correlation_of_complete_pairs :
    (∀ xs ys, correlation ys xs = correlation xs ys) ∧
    (∀ xs ys i x y, IsAbsent x ∨ IsAbsent y →
      correlation (xs.insertIdx i x) (ys.insertIdx i y) = correlation xs ys) ∧
    (∀ xs ys i x y, xs[i]? = some x → ys[i]? = some y → IsAbsent x ∨ IsAbsent y →
      correlation (xs.eraseIdx i) (ys.eraseIdx i) = correlation xs ys) ∧
    ∀ old old' new new' names oldLabel newLabel report, Table.Thinned names old old' →
      Table.Thinned names new new' → profiles old new names oldLabel newLabel = .ok report →
      ∃ report' a b, profiles old' new' names oldLabel newLabel = .ok report' ∧
        report.rows.getLast? = some (correlationRow a b) ∧
        report'.rows.getLast? = some (correlationRow a b) := by
  refine ⟨correlation_comm, ?_, ?_, ?_⟩
  · intro xs ys i x y incomplete
    exact correlation_insertIdx incomplete xs ys i
  · intro xs ys i x y left right incomplete
    exact correlation_eraseIdx left right incomplete
  · intro old old' new new' names oldLabel newLabel report left right given
    exact correlationRow_of_thinned left right given

/-- A profile of five runs, of which the first and the fourth have both values. -/
def patchyRuns : Table :=
  ⟨["duration in microseconds", "visited nodes"],
    [["1", "10"], ["", "20"], ["2", "NAN"], ["4", "15"], ["-nan", "NULL"]]⟩

theorem correlation_of_complete_pairs_patchy :
    correlation [some .nan, some (.ofNat 1), none, some (.ofNat 4)]
        [some (.ofNat 7), some (.ofNat 10), some (.ofNat 20), some (.ofNat 15)] =
      correlation [some (.ofNat 1), some (.ofNat 4)] [some (.ofNat 10), some (.ofNat 15)] ∧
    (patchyRuns.completeRuns {}).rows = [["1", "10"], ["4", "15"]] ∧
    ∃ report report' a b,
      profiles patchyRuns oddRuns {} "old" "new" = .ok report ∧
      profiles (patchyRuns.completeRuns {}) (oddRuns.completeRuns {}) {} "old" "new" =
        .ok report' ∧
      report.rows.getLast? = some (correlationRow a b) ∧
      report'.rows.getLast? = some (correlationRow a b) := by
  obtain ⟨-, insertion, deletion, thinning⟩ := correlation_of_complete_pairs
  have inserted := insertion [some (.ofNat 1), none, some (.ofNat 4)]
    [some (.ofNat 10), some (.ofNat 20), some (.ofNat 15)] 0 (some .nan) (some (.ofNat 7))
    (Or.inl (Or.inr rfl))
  have deleted := deletion [some (.ofNat 1), none, some (.ofNat 4)]
    [some (.ofNat 10), some (.ofNat 20), some (.ofNat 15)] 1 none (some (.ofNat 20)) rfl rfl
    (Or.inl (Or.inl rfl))
  have patchy : IsProfile patchyRuns {} :=
    ⟨[some (.ofNat 1), none, some (.ofNat 2), some (.ofNat 4), none],
      [some (.ofNat 10), some (.ofNat 20), none, some (.ofNat 15), none], by decide +kernel⟩
  obtain ⟨report, given⟩ := exists_profiles_iff.2
    ⟨(by decide : "old" ≠ "new"), patchy, isProfile_oddRuns⟩
  obtain ⟨report', a, b, given', last, last'⟩ := thinning _ _ _ _ _ _ _ _
    (Table.thinned_completeRuns patchyRuns {}) (Table.thinned_completeRuns oddRuns {}) given
  exact ⟨inserted.trans deleted.symm, by decide +kernel, report, report', a, b, given, given',
    last, last'⟩

end Report

end BenchStats
