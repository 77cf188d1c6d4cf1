import BenchStats.Proofs.Outcome
import BenchStats.Proofs.Series.Variance
import BenchStats.Report.Profiles

/-!
# The correlation in a comparison of profiles

The last row of a comparison of profiles holds the correlation of the two columns of either profile.
Where a column does not vary, or too few runs have both values, there is no correlation and the cell
stays empty.
-/

namespace BenchStats.Report

open Series

/-- The measures of both columns on their own. -/
def columnMeasures (duration visited : List (Option Binary64)) : List (String × Binary64) :=
  measuresOf "duration" (Summary.ofSeries duration.reduceOption) ++
    measuresOf "visited_nodes" (Summary.ofSeries visited.reduceOption)

theorem measures_eq_ok {t : Table} {names : ProfileColumns} {found : List (String × Binary64)}
    (given : measures t names = .ok found) :
    ∃ duration visited, t.optionalColumn names.duration = .ok duration ∧
      t.optionalColumn names.visited = .ok visited ∧
      found = columnMeasures duration visited ++
        [("correlation_coefficient", correlation duration visited)] := by
  obtain ⟨duration, readDuration, given⟩ := bind_eq_ok given
  obtain ⟨visited, readVisited, given⟩ := bind_eq_ok given
  cases given
  exact ⟨duration, visited, ReportError.ofColumn_eq_ok_iff.1 readDuration,
    ReportError.ofColumn_eq_ok_iff.1 readVisited, rfl⟩

def measureRow (name : String) (a b : Binary64) : List String :=
  [name, Number.floatText a, Number.floatText b, Number.floatText (percentDifference a b)]

/-- The rows of two lists of measures. -/
def measureRows (before after : List (String × Binary64)) : List (List String) :=
  List.zipWith (fun (name, a) (_, b) => measureRow name a b) before after

theorem profiles_eq_ok_iff {old new report : Table} {names : ProfileColumns}
    {oldLabel newLabel : String} :
    profiles old new names oldLabel newLabel = .ok report ↔
      oldLabel ≠ newLabel ∧ ∃ before after, measures old names = .ok before ∧
        measures new names = .ok after ∧
        report = ⟨["Statistical Measure", oldLabel, newLabel, "percent_difference"],
          measureRows before after⟩ := by
  unfold profiles
  constructor
  · intro given
    split at given
    next => cases given
    next different =>
      obtain ⟨before, readOld, given⟩ := bind_eq_ok given
      obtain ⟨after, readNew, given⟩ := bind_eq_ok given
      cases given
      exact ⟨different, before, after, readOld, readNew, rfl⟩
  · rintro ⟨different, before, after, readOld, readNew, rfl⟩
    rw [if_neg different, readOld, readNew]
    rfl

/-- The row that two correlations have. -/
def correlationRow (a b : Binary64) : List String :=
  ["correlation_coefficient", Number.floatText a, Number.floatText b,
    Number.floatText (percentDifference a b)]

theorem getLast?_profiles {old new report : Table} {names : ProfileColumns}
    {oldLabel newLabel : String} (given : profiles old new names oldLabel newLabel = .ok report) :
    ∃ duration visited duration' visited',
      old.optionalColumn names.duration = .ok duration ∧
      old.optionalColumn names.visited = .ok visited ∧
      new.optionalColumn names.duration = .ok duration' ∧
      new.optionalColumn names.visited = .ok visited' ∧
      report.rows.getLast? =
        some (correlationRow (correlation duration visited) (correlation duration' visited')) := by
  obtain ⟨-, before, after, readOld, readNew, rfl⟩ := profiles_eq_ok_iff.1 given
  obtain ⟨duration, visited, readDuration, readVisited, rfl⟩ := measures_eq_ok readOld
  obtain ⟨duration', visited', readDuration', readVisited', rfl⟩ := measures_eq_ok readNew
  refine ⟨duration, visited, duration', visited', readDuration, readVisited, readDuration',
    readVisited', ?_⟩
  have sameLength : (columnMeasures duration visited).length =
      (columnMeasures duration' visited').length := rfl
  rw [measureRows, List.zipWith_append sameLength]
  exact List.getLast?_concat

@[simp] theorem percentDifference_nan (x : Binary64) :
    percentDifference .nan x = .nan ∧ percentDifference x .nan = .nan := by
  cases x <;> exact ⟨rfl, rfl⟩

@[simp] theorem correlationRow_nan_left (b : Binary64) :
    correlationRow .nan b = ["correlation_coefficient", "", Number.floatText b, ""] := by
  rw [correlationRow, (percentDifference_nan b).1]
  rfl

@[simp] theorem correlationRow_nan_right (a : Binary64) :
    correlationRow a .nan = ["correlation_coefficient", Number.floatText a, "", ""] := by
  rw [correlationRow, (percentDifference_nan a).2]
  rfl

/-- Two series have no correlation.  In every comparison of a profile with these columns the cell of
its correlation is empty, and so is that of the difference. -/
structure Uncorrelated (xs ys : List (Option Binary64)) : Prop where
  undefined : correlation xs ys = .nan
  emptyCell : ∀ {t other report : Table} {names : ProfileColumns} {label otherLabel : String},
    t.optionalColumn names.duration = .ok xs → t.optionalColumn names.visited = .ok ys →
    (profiles t other names label otherLabel = .ok report →
      ∃ cell, report.rows.getLast? = some ["correlation_coefficient", "", cell, ""]) ∧
    (profiles other t names otherLabel label = .ok report →
      ∃ cell, report.rows.getLast? = some ["correlation_coefficient", cell, "", ""])

theorem uncorrelated_of_nan {xs ys : List (Option Binary64)}
    (undefined : correlation xs ys = .nan) : Uncorrelated xs ys := by
  refine ⟨undefined, fun readDuration readVisited => ⟨?_, ?_⟩⟩
  · intro given
    obtain ⟨_, _, _, _, durationRead, visitedRead, _, _, last⟩ := getLast?_profiles given
    cases readDuration.symm.trans durationRead
    cases readVisited.symm.trans visitedRead
    rw [undefined, correlationRow_nan_left] at last
    exact ⟨_, last⟩
  · intro given
    obtain ⟨_, _, _, _, _, _, durationRead, visitedRead, last⟩ := getLast?_profiles given
    cases readDuration.symm.trans durationRead
    cases readVisited.symm.trans visitedRead
    rw [undefined, correlationRow_nan_right] at last
    exact ⟨_, last⟩

/-- Series with fewer than two complete pairs have no correlation.  Neither have series with a side
on which all pairs have the same number, unless the mean of that side is rounded to another number;
it never is as long as no multiple of the number is rounded in the sum. -/
theorem no_correlation_without_variance (xs ys : List (Option Binary64)) :
    ((completePairs xs ys).length < 2 → Uncorrelated xs ys) ∧
      ∀ (side : Binary64 × Binary64 → Binary64) (c : Rat), (side = Prod.fst ∨ side = Prod.snd) →
        Constant side (completePairs xs ys) c →
        Uncorrelated xs ys ∨ ¬ Binary64.ExactMean (completePairs xs ys).length c ∧
          ∃ m, (side (centre (completePairs xs ys))).value? = some m ∧ m ≠ c := by
  constructor
  · intro few
    apply uncorrelated_of_nan
    rw [correlation_eq, if_pos few]
  · intro side c isSide constant
    exact (correlation_of_constant isSide constant).imp_left uncorrelated_of_nan

/-- A profile of four runs with one duration, of which one has no count. -/
def steadyRuns : Table :=
  ⟨["duration in microseconds", "visited nodes"],
    [["2.5", "10"], ["2.5", "NA"], ["2.5", "40"], ["2.5", "70"]]⟩

def steadyDurations : List (Option Binary64) := List.replicate 4 (some (.ofRat false (5 / 2)))

def steadyCounts : List (Option Binary64) :=
  [some (.ofNat 10), none, some (.ofNat 40), some (.ofNat 70)]

theorem no_correlation_without_variance_steady :
    ∃ report cell, profiles steadyRuns steadyRuns {} "old" "new" = .ok report ∧
      report.rows.getLast? = some ["correlation_coefficient", "", cell, ""] := by
  have duration : steadyRuns.optionalColumn "duration in microseconds" = .ok steadyDurations := by
    decide +kernel
  have visited : steadyRuns.optionalColumn "visited nodes" = .ok steadyCounts := by
    decide +kernel
  have constant : Constant Prod.fst (completePairs steadyDurations steadyCounts)
      ((5 : Int) * (2 : Rat) ^ (-1 : Int)) := by
    unfold Constant
    decide +kernel
  have three : (completePairs steadyDurations steadyCounts).length = 3 := by decide +kernel
  have exact : Binary64.ExactMean (completePairs steadyDurations steadyCounts).length
      ((5 : Int) * (2 : Rat) ^ (-1 : Int)) := by
    rw [three]
    exact Binary64.exactMean_of_digits (by decide) (by decide) (by decide) (by decide)
  obtain ⟨report, given⟩ :
      ∃ report, profiles steadyRuns steadyRuns {} "old" "new" = .ok report := by
    unfold profiles measures
    rw [if_neg (by decide), duration, visited]
    exact ⟨_, rfl⟩
  have uncorrelated := ((no_correlation_without_variance steadyDurations steadyCounts).2
    Prod.fst _ (Or.inl rfl) constant).resolve_right fun rounded => rounded.1 exact
  obtain ⟨cell, last⟩ := (uncorrelated.emptyCell duration visited).1 given
  exact ⟨report, cell, given, last⟩

/-- Three times the number nearest to a tenth. -/
def threeTenths : List (Option Binary64) := List.replicate 3 (some (.ofRat false (1 / 10)))

/-- The mean of these is rounded to another number, so both sides have deviations, and as these are
all the same the correlation of two series that do not vary comes out as one. -/
theorem not_no_correlation_tenths :
    ¬ ∀ xs ys : List (Option Binary64), (∀ x, some x ∈ xs → x.isFinite = true) →
      (∀ y, some y ∈ ys → y.isFinite = true) →
      ((completePairs xs ys).length < 2 ∨ ∃ c,
        Constant Prod.fst (completePairs xs ys) c ∨ Constant Prod.snd (completePairs xs ys) c) →
      correlation xs ys = .nan := by
  intro undefined
  have finite : ∀ x, some x ∈ threeTenths → x.isFinite = true := by
    intro x member
    cases List.eq_of_mem_replicate member
    decide +kernel
  have constant : Constant Prod.fst (completePairs threeTenths threeTenths)
      (Binary64.ofRat false (1 / 10)).toRat := by
    unfold Constant
    decide +kernel
  have one : correlation threeTenths threeTenths = .ofNat 1 := by decide +kernel
  have nan := undefined threeTenths threeTenths finite finite (Or.inr ⟨_, Or.inl constant⟩)
  rw [one] at nan
  exact absurd nan (by decide +kernel)

end BenchStats.Report
