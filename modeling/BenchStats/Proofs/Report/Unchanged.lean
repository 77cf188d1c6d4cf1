import BenchStats.Proofs.Binary64.Sums
import BenchStats.Proofs.Report.Headers
import BenchStats.Proofs.Series.Quantile

/-!
# A table compared with itself

A statistic that is a finite number other than zero has changed by nothing, and the cell shows a
zero, but with the sign of the statistic.  The change of zero, of an infinity and of not-a-number is
undefined, and the cell is empty.
-/

namespace BenchStats

namespace Binary64

@[simp] theorem sub_self_of_finite (negative : Bool) (m : Magnitude) :
    (finite negative m).sub (finite negative m) = zero := by
  have opposite : signedValue negative m + signedValue (!negative) m = 0 := by
    simp
  have signs : (negative && !negative) = false := by simp
  rw [sub, neg, add, opposite, signs]
  rfl

end Binary64

namespace Series

open Binary64

@[simp]
theorem percentChange_self_of_ne_zero (negative : Bool) {m : Magnitude} (nonzero : m ≠ .zero) :
    percentChange (.finite negative m) (.finite negative m) = .finite negative .zero := by
  have nothing : signedValue false .zero = 0 := Magnitude.value_zero
  have quotient : zero.div (.finite negative m) = .finite negative .zero := by
    rw [zero, div, if_neg nonzero, nothing, zero_div, ofRat, if_pos rfl]
    cases negative <;> rfl
  have percent : (finite negative .zero).mul (ofNat 100) = .finite negative .zero := by
    cases negative <;> decide +kernel
  simp [percentChange, quotient, percent]

@[simp] theorem percentChange_self_of_zero (negative : Bool) :
    percentChange (.finite negative .zero) (.finite negative .zero) = .nan := by
  rw [percentChange, sub_self_of_finite, zero, div, if_pos rfl, if_pos rfl]
  rfl

@[simp] theorem percentChange_self_of_infinite (negative : Bool) :
    percentChange (.infinite negative) (.infinite negative) = .nan := by
  cases negative <;> rfl

theorem nonneg_deviation {values : List Binary64} {mean : Binary64} {v : Rat}
    (value : (deviation values mean).value? = some v) : 0 ≤ v := by
  unfold deviation at value
  split at value
  next => cases value
  next => exact nonneg_of_value?_sqrt value

end Series

namespace Report

open Binary64

/-- What the cell of the change shows for a statistic that stays as it is. -/
inductive ShowsNoChange : Binary64 → String → Prop where
  | positive {x : Binary64} {v : Rat} : x.value? = some v → 0 < v → ShowsNoChange x "0"
  | negative {x : Binary64} {v : Rat} : x.value? = some v → v < 0 → ShowsNoChange x "-0"
  | undefined {x : Binary64} : x.value? = none ∨ x.value? = some 0 → ShowsNoChange x ""

theorem showsNoChange_percentChange (x : Binary64) :
    ShowsNoChange x (Number.floatText (Series.percentChange x x)) := by
  cases x with
  | nan => exact .undefined (Or.inl rfl)
  | infinite negative =>
    rw [Series.percentChange_self_of_infinite]
    exact .undefined (Or.inl rfl)
  | finite negative m =>
    by_cases zero : m = .zero
    · subst zero
      rw [Series.percentChange_self_of_zero]
      exact .undefined (Or.inr (value?_signedZero negative))
    · rw [Series.percentChange_self_of_ne_zero negative zero]
      have positive := Magnitude.value_pos zero
      cases negative with
      | false => exact .positive rfl positive
      | true => exact .negative rfl (neg_lt_zero.2 positive)

/-- What the cell is meant to show. -/
def ShowsZero (x : Binary64) (cell : String) : Prop :=
  (cell = "0" ∨ cell = "") ∧ ∀ v, x.value? = some v → v ≠ 0 → cell = "0"

theorem ShowsNoChange.showsZero {x : Binary64} {cell : String} (shows : ShowsNoChange x cell)
    (nonneg : ∀ v, x.value? = some v → 0 ≤ v) : ShowsZero x cell := by
  cases shows with
  | positive => exact ⟨Or.inl rfl, fun _ _ _ => rfl⟩
  | negative value below => exact absurd below (nonneg _ value).not_gt
  | undefined none =>
    refine ⟨Or.inr rfl, fun v value nonzero => ?_⟩
    rcases none with none | zero
    · cases none.symm.trans value
    · exact absurd (Option.some.inj (value.symm.trans zero)) nonzero

theorem ShowsNoChange.eq_of_negative {x : Binary64} {cell : String} {v : Rat}
    (shows : ShowsNoChange x cell) (value : x.value? = some v) (below : v < 0) : cell = "-0" := by
  cases shows with
  | positive value' above =>
    cases value.symm.trans value'
    exact absurd above below.not_gt
  | negative => rfl
  | undefined none =>
    rcases none with none | zero
    · cases value.symm.trans none
    · cases value.symm.trans zero
      exact absurd below (lt_irrefl 0)

/-- A row of a statistic that is the same in both tables. -/
def Repeats (shows : Binary64 → String → Prop) (statistic : String × Binary64)
    (row : List String) : Prop :=
  ∃ change, shows statistic.2 change ∧
    row = [statistic.1, Number.floatText statistic.2, Number.floatText statistic.2, change]

@[simp] theorem position_change (before after : List Binary64) :
    (totalReport before after).position "Percentage Difference (%)" = .ok 3 := by
  apply Table.position_eq_idxOf
  show "Percentage Difference (%)" ∈ "Statistic" :: (sideLabels ++ ["Percentage Difference (%)"])
  simp

@[simp] theorem rows_totalReport_self (values : List Binary64) :
    (totalReport values values).rows = (totalStatistics (Summary.ofSeries values)).map
      fun (statistic, x) => [statistic, Number.floatText x, Number.floatText x,
        Number.floatText (Series.percentChange x x)] :=
  List.zipWith_self

theorem total_self_eq_ok_iff {t report : Table} {name : String} :
    total t t name = .ok report ↔
      ∃ values, t.column name = .ok values ∧ report = totalReport values values := by
  rw [total_eq_ok_iff]
  constructor
  · rintro ⟨values, _, read, read', rfl⟩
    cases read.symm.trans read'
    exact ⟨values, read, rfl⟩
  · rintro ⟨values, read, rfl⟩
    exact ⟨values, values, read, read, rfl⟩

/-- Without a value less than zero no statistic is less than zero. -/
theorem nonneg_totalStatistics {values : List Binary64}
    (nonneg : ∀ value ∈ values, value.lt .zero = false) :
    ∀ statistic ∈ totalStatistics (Summary.ofSeries values),
      ∀ v, statistic.2.value? = some v → 0 ≤ v := by
  by_cases empty : Series.sorted values = []
  · have nothing : Summary.ofSeries values =
        ⟨0, .nan, .nan, .nan, .nan, .nan, .nan, .nan, .nan⟩ := by
      rw [Summary.ofSeries, empty]
    rw [nothing]
    simp [totalStatistics, value?]
  have sortedNonneg : ∀ value ∈ Series.sorted values, zero.le value = true := by
    intro value member
    obtain ⟨inValues, number⟩ := Series.mem_sorted.1 member
    by_contra below
    rw [← lt_iff_not_le number rfl, nonneg value inValues] at below
    cases below
  have side {x : Binary64} (above : zero.le x = true) (v : Rat) (value : x.value? = some v) :
      0 ≤ v := (le_iff_of_value? value?_zero value).1 above
  obtain ⟨leastMember, greatestMember, -⟩ := Summary.extremes_ofSeries empty
  obtain ⟨mean, deviation⟩ := Summary.mean_ofSeries_of_ne_nil empty
  obtain ⟨least, -, median, -⟩ := Summary.ofSeries_of_ne_nil empty
  simp only [totalStatistics, List.forall_mem_cons, List.not_mem_nil]
  refine ⟨?mean, ?median, ?deviation, ?least, ?greatest, by simp⟩
  case mean =>
    intro v value
    rw [mean] at value
    exact nonneg_of_div_ofNat (nonneg_sum sortedNonneg) (List.length_pos_iff.2 empty) value
  case median =>
    apply side
    rw [median]
    have between := ((Series.sorted_ascending values).quantile_between empty
      (.ofRat false (1 / 2))).1
    rw [← least] at between
    exact le_trans (sortedNonneg _ leastMember) between
  case deviation =>
    rw [deviation]
    exact fun _ => Series.nonneg_deviation
  case least => exact side (sortedNonneg _ leastMember)
  case greatest => exact side (sortedNonneg _ greatestMember)

/-- A table compared with itself shows each statistic twice and a change of zero, with the sign of
the statistic, or none where the statistic is zero or not a finite number.  So the column of the
changes holds nothing but `0` and blank cells unless some value is less than zero. -/
theorem total_self {t report : Table} {name : String} (given : total t t name = .ok report) :
    ∃ values, t.column name = .ok values ∧
      report.position "Percentage Difference (%)" = .ok 3 ∧
      List.Forall₂ (Repeats ShowsNoChange) (totalStatistics (Summary.ofSeries values))
        report.rows ∧
      ((∀ value ∈ values, value.lt .zero = false) →
        List.Forall₂ (Repeats ShowsZero) (totalStatistics (Summary.ofSeries values))
          report.rows) := by
  obtain ⟨values, read, rfl⟩ := total_self_eq_ok_iff.1 given
  refine ⟨values, read, position_change values values, ?_, fun nonneg => ?_⟩
  all_goals rw [rows_totalReport_self, List.forall₂_map_right_iff, List.forall₂_same]
  · intro statistic _
    exact ⟨_, showsNoChange_percentChange statistic.2, rfl⟩
  · intro statistic member
    have zero := (showsNoChange_percentChange statistic.2).showsZero
      (nonneg_totalStatistics nonneg statistic member)
    exact ⟨_, zero, rfl⟩

theorem total_self_rising : ∃ report,
    total ⟨["x"], [["1"], ["3"]]⟩ ⟨["x"], [["1"], ["3"]]⟩ "x" = .ok report ∧
      report.position "Percentage Difference (%)" = .ok 3 ∧
      List.Forall₂ (Repeats ShowsZero) (totalStatistics (Summary.ofSeries [.ofNat 1, .ofNat 3]))
        report.rows := by
  have column : Table.column ⟨["x"], [["1"], ["3"]]⟩ "x" = .ok [.ofNat 1, .ofNat 3] := by
    decide +kernel
  have given := total_self_eq_ok_iff.2 ⟨_, column, rfl⟩
  obtain ⟨values, column', place, -, zeros⟩ := total_self given
  cases column.symm.trans column'
  exact ⟨_, given, place, zeros (by decide +kernel)⟩

/-- A table of one value less than zero. -/
theorem not_total_self_negative :
    ¬ ∀ (t report : Table) (name : String), total t t name = .ok report →
      ∀ row ∈ report.rows, row.getD 3 "" = "0" ∨ row.getD 3 "" = "" := by
  intro unchanged
  have column : Table.column ⟨["x"], [["-1"]]⟩ "x" = .ok [.ofInt (-1)] := by decide +kernel
  have given := total_self_eq_ok_iff.2 ⟨_, column, rfl⟩
  have least : (Summary.ofSeries [.ofInt (-1)]).least = .ofInt (-1) := by
    decide +kernel
  have inRows : ["Min", Number.floatText (.ofInt (-1)), Number.floatText (.ofInt (-1)),
      Number.floatText (Series.percentChange (.ofInt (-1)) (.ofInt (-1)))] ∈
      (totalReport [.ofInt (-1)] [.ofInt (-1)]).rows := by
    rw [rows_totalReport_self]
    refine List.mem_map.2 ⟨("Min", .ofInt (-1)), ?_, rfl⟩
    simp [totalStatistics, least]
  have below : (ofInt (-1)).value? = some (-1) := by decide +kernel
  have shown := (showsNoChange_percentChange _).eq_of_negative below (by norm_num)
  have cell := unchanged _ _ _ given _ inRows
  simp [shown] at cell

end Report

end BenchStats
