import BenchStats.Proofs.Report.Profiles
import BenchStats.Proofs.Series.CompletePairs

/-!
# Profiles compared the other way round

Two profiles can be compared in either order.  Both comparisons have the same measures in the same
order, with the values under exchanged labels and the same difference in percent.
-/

namespace BenchStats.Report

open Series

/-- The measures of a profile, in the order of their rows. -/
def measureNames : List String :=
  (["duration", "visited_nodes"].flatMap fun column =>
    ["average", "median", "min", "max", "25th_percentile", "75th_percentile"].map
      fun statistic => s!"{statistic}_{column}") ++ ["correlation_coefficient"]

/-- A table has both columns of a profile, and they are numeric. -/
def IsProfile (t : Table) (names : ProfileColumns) : Prop :=
  ∃ duration visited, t.optionalColumn names.duration = .ok duration ∧
    t.optionalColumn names.visited = .ok visited

theorem exists_measures_iff {t : Table} {names : ProfileColumns} :
    (∃ found, measures t names = .ok found) ↔ IsProfile t names := by
  constructor
  · rintro ⟨found, given⟩
    obtain ⟨duration, visited, readDuration, readVisited, -⟩ := measures_eq_ok given
    exact ⟨duration, visited, readDuration, readVisited⟩
  · rintro ⟨duration, visited, readDuration, readVisited⟩
    rw [measures, readDuration, readVisited]
    exact ⟨_, rfl⟩

theorem map_fst_measures {t : Table} {names : ProfileColumns} {found : List (String × Binary64)}
    (given : measures t names = .ok found) : found.map Prod.fst = measureNames := by
  obtain ⟨duration, visited, -, -, rfl⟩ := measures_eq_ok given
  rfl

theorem exists_profiles_iff {old new : Table} {names : ProfileColumns}
    {oldLabel newLabel : String} :
    (∃ report, profiles old new names oldLabel newLabel = .ok report) ↔
      oldLabel ≠ newLabel ∧ IsProfile old names ∧ IsProfile new names := by
  simp only [profiles_eq_ok_iff, ← exists_measures_iff]
  constructor
  · rintro ⟨report, different, before, after, readOld, readNew, -⟩
    exact ⟨different, ⟨before, readOld⟩, ⟨after, readNew⟩⟩
  · rintro ⟨different, ⟨before, readOld⟩, ⟨after, readNew⟩⟩
    exact ⟨_, different, before, after, readOld, readNew, rfl⟩

/-- The same measure with its values exchanged. -/
inductive ExchangedRow : List String → List String → Prop where
  | intro (name a b difference : String) :
      ExchangedRow [name, a, b, difference] [name, b, a, difference]

theorem exchanged_measureRows {before after : List (String × Binary64)}
    (sameNames : before.map Prod.fst = after.map Prod.fst) :
    List.Forall₂ ExchangedRow (measureRows before after) (measureRows after before) := by
  induction before generalizing after with
  | nil =>
    cases after with
    | nil => exact .nil
    | cons => cases sameNames
  | cons first before inductionHypothesis =>
    cases after with
    | nil => cases sameNames
    | cons second after =>
      obtain ⟨name, a⟩ := first
      obtain ⟨otherName, b⟩ := second
      rw [List.map_cons, List.map_cons, List.cons.injEq] at sameNames
      obtain ⟨rfl, sameNames⟩ := sameNames
      have exchanged : ExchangedRow (measureRow name a b) (measureRow name b a) := by
        rw [measureRow, measureRow, percentDifference_comm b a]
        exact .intro ..
      exact .cons exchanged (inductionHypothesis sameNames)

theorem head?_measureRows {names : List String} {before after : List (String × Binary64)}
    (left : before.map Prod.fst = names) (right : after.map Prod.fst = names) :
    (measureRows before after).map List.head? = names.map some := by
  induction names generalizing before after with
  | nil =>
    cases List.map_eq_nil_iff.1 left
    rfl
  | cons name names inductionHypothesis =>
    obtain ⟨first, before, rfl, rfl, leftRest⟩ := List.map_eq_cons_iff.1 left
    obtain ⟨second, after, rfl, -, rightRest⟩ := List.map_eq_cons_iff.1 right
    rw [List.map_cons, ← inductionHypothesis leftRest rightRest]
    rfl

/-- Comparing two profiles the other way round succeeds exactly if comparing them does.  Both
reports have the measures of profiles in their order, the values stand under exchanged labels, and
the differences in percent are the same texts. -/
theorem profiles_exchange (old new : Table) (names : ProfileColumns) (oldLabel newLabel : String) :
    ((∃ report, profiles old new names oldLabel newLabel = .ok report) ↔
      ∃ other, profiles new old names newLabel oldLabel = .ok other) ∧
    ∀ report other, profiles old new names oldLabel newLabel = .ok report →
      profiles new old names newLabel oldLabel = .ok other →
      report.headers = ["Statistical Measure", oldLabel, newLabel, "percent_difference"] ∧
      other.headers = ["Statistical Measure", newLabel, oldLabel, "percent_difference"] ∧
      report.rows.map List.head? = measureNames.map some ∧
      List.Forall₂ ExchangedRow report.rows other.rows := by
  constructor
  · rw [exists_profiles_iff, exists_profiles_iff, ne_comm, @and_comm (IsProfile old names)]
  · intro report other given given'
    obtain ⟨-, before, after, readOld, readNew, rfl⟩ := profiles_eq_ok_iff.1 given
    obtain ⟨-, after', before', readNew', readOld', rfl⟩ := profiles_eq_ok_iff.1 given'
    cases readOld.symm.trans readOld'
    cases readNew.symm.trans readNew'
    have left := map_fst_measures readOld
    have right := map_fst_measures readNew
    exact ⟨rfl, rfl, head?_measureRows left right, exchanged_measureRows (left.trans right.symm)⟩

/-- A profile with an infinite duration and a missing count, and one with values less than zero. -/
def oddRuns : Table :=
  ⟨["duration in microseconds", "visited nodes"], [["inf", "3"], ["-2.5", "NA"]]⟩

def negativeRuns : Table :=
  ⟨["visited nodes", "duration in microseconds"], [["-3", "-0.0"], ["7", "-2.5"]]⟩

theorem isProfile_oddRuns : IsProfile oddRuns {} :=
  ⟨[some (.infinite false), some (.ofRat false (-5 / 2))], [some (.ofNat 3), none],
    by decide +kernel⟩

theorem profiles_exchange_odd : ∃ report other,
    profiles oddRuns negativeRuns {} "old" "new" = .ok report ∧
    profiles negativeRuns oddRuns {} "new" "old" = .ok other ∧
    report.rows.length = 13 ∧ List.Forall₂ ExchangedRow report.rows other.rows := by
  have negative : IsProfile negativeRuns {} :=
    ⟨[some .negativeZero, some (.ofRat false (-5 / 2))], [some (.ofInt (-3)), some (.ofNat 7)],
      by decide +kernel⟩
  have distinct : "old" ≠ "new" := by decide
  obtain ⟨report, given⟩ := exists_profiles_iff.2 ⟨distinct, isProfile_oddRuns, negative⟩
  obtain ⟨symmetric, exchanged⟩ := profiles_exchange oddRuns negativeRuns {} "old" "new"
  obtain ⟨other, given'⟩ := symmetric.1 ⟨report, given⟩
  obtain ⟨-, -, measured, rows⟩ := exchanged report other given given'
  refine ⟨report, other, given, given', ?_, rows⟩
  rw [← List.length_map List.head?, measured]
  rfl

end BenchStats.Report
