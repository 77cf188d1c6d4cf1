import BenchStats.Proofs.Binary64.Arithmetic
import BenchStats.Proofs.Series.Ascending

/-!
# Quantiles are ordered

A quantile lies between the values at two neighbouring ranks, whatever becomes of the difference of
the two, and it grows with the fraction.  At a position that is a rank it is the value there.
-/

namespace BenchStats.Series

open Binary64

section Interpolation

variable {lower upper part part' : Binary64} {x x' : Rat}

theorem interpolate_between (part : Binary64) (ordered : lower.le upper = true) :
    lower.le (interpolate lower upper part) = true ∧
      (interpolate lower upper part).le upper = true :=
  max_min_between _ ordered

end Interpolation

section Position

variable {fraction fraction' : Binary64} {v v' : Rat}

variable {p p' : Binary64}

end Position

section Quantile

variable {values : List Binary64} {fraction fraction' : Binary64}

theorem Ascending.bracket (ascending : Ascending values) {rank : Nat}
    (inside : rank < values.length) :
    (atRank values rank).le (atRank values (min (rank + 1) (values.length - 1))) = true :=
  ascending.atRank_le (by omega) (by omega)

theorem quantile_eq_interpolate (two : 2 ≤ values.length) (fraction : Binary64) :
    quantile values fraction =
      let last := values.length - 1
      let rank := rankBelow last (position last fraction)
      interpolate (atRank values rank) (atRank values (min (rank + 1) last))
        ((position last fraction).sub (.ofNat rank)) := by
  match values, two with
  | _ :: _ :: _, _ => rfl

@[simp] theorem quantile_of_length_one (one : values.length = 1) (fraction : Binary64) :
    quantile values fraction = atRank values 0 := by
  obtain ⟨value, rfl⟩ := List.length_eq_one_iff.1 one
  rfl

@[simp] theorem rankBelow_lt_length (two : 2 ≤ values.length) (p : Binary64) :
    rankBelow (values.length - 1) p < values.length := by
  have held : rankBelow (values.length - 1) p ≤ values.length - 1 := clampToNat_le _ _
  omega

/-- A quantile lies between the values at the rank below its position and at the next one. -/
theorem Ascending.quantile_in_bracket (ascending : Ascending values) (two : 2 ≤ values.length)
    (fraction : Binary64) :
    let rank := rankBelow (values.length - 1) (position (values.length - 1) fraction)
    (atRank values rank).le (quantile values fraction) = true ∧
      (quantile values fraction).le
        (atRank values (min (rank + 1) (values.length - 1))) = true := by
  rw [quantile_eq_interpolate two]
  exact interpolate_between _ (ascending.bracket (rankBelow_lt_length two _))

theorem Ascending.quantile_between (ascending : Ascending values) (nonempty : values ≠ [])
    (fraction : Binary64) :
    (atRank values 0).le (quantile values fraction) = true ∧
      (quantile values fraction).le (atRank values (values.length - 1)) = true := by
  have positive := List.length_pos_of_ne_nil nonempty
  rcases Nat.lt_or_ge values.length 2 with few | two
  · have one : values.length = 1 := by omega
    rw [quantile_of_length_one one, one]
    exact ⟨ascending.atRank_le le_rfl positive, ascending.atRank_le le_rfl positive⟩
  · obtain ⟨above, below⟩ := ascending.quantile_in_bracket two fraction
    have inside := rankBelow_lt_length two (position (values.length - 1) fraction)
    exact ⟨le_trans (ascending.atRank_le (Nat.zero_le _) inside) above,
      le_trans below (ascending.atRank_le (Nat.min_le_right _ _) (by omega))⟩

end Quantile

end BenchStats.Series

namespace BenchStats.Summary

open Series

theorem ofSeries_of_ne_nil {values : List Binary64} (nonempty : sorted values ≠ []) :
    (ofSeries values).least = atRank (sorted values) 0 ∧
      (ofSeries values).lowerQuartile = quantile (sorted values) (.ofRat false (1 / 4)) ∧
      (ofSeries values).median = quantile (sorted values) (.ofRat false (1 / 2)) ∧
      (ofSeries values).middleQuartile = (ofSeries values).median ∧
      (ofSeries values).upperQuartile = quantile (sorted values) (.ofRat false (3 / 4)) ∧
      (ofSeries values).greatest = atRank (sorted values) ((sorted values).length - 1) := by
  unfold ofSeries
  cases order : sorted values with
  | nil => exact absurd order nonempty
  | cons first rest => exact ⟨rfl, rfl, rfl, rfl, rfl, rfl⟩

theorem extremes_ofSeries {values : List Binary64} (nonempty : sorted values ≠ []) :
    (ofSeries values).least ∈ sorted values ∧ (ofSeries values).greatest ∈ sorted values ∧
      ∀ value ∈ sorted values, (ofSeries values).least.le value = true ∧
        value.le (ofSeries values).greatest = true := by
  obtain ⟨least, -, -, -, -, greatest⟩ := ofSeries_of_ne_nil nonempty
  rw [least, greatest]
  refine ⟨?_, ?_, fun value => (sorted_ascending values).between⟩
  · rw [← head_eq_atRank nonempty]
    exact List.head_mem nonempty
  · rw [← getLast_eq_atRank nonempty]
    exact List.getLast_mem nonempty

theorem mean_ofSeries_of_ne_nil {values : List Binary64} (nonempty : sorted values ≠ []) :
    (ofSeries values).mean = Series.mean (sorted values) ∧
      (ofSeries values).deviation =
        Series.deviation (sorted values) (Series.mean (sorted values)) := by
  unfold ofSeries
  cases order : sorted values with
  | nil => exact absurd order nonempty
  | cons first rest => exact ⟨rfl, rfl⟩

end BenchStats.Summary
