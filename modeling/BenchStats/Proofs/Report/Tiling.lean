import BenchStats.Proofs.Series.Histogram
import BenchStats.Report.Groups
import Mathlib.Algebra.BigOperators.Group.Finset.Piecewise

/-!
# Histograms keep every value

The index of a bin is held to the last one, so a value is counted in a bin that is there, also where
the width is zero, infinite or not a number.  The rows of a group therefore count each of its finite
values once, and each row but the first starts at the edge where the row before it ends.
-/

namespace BenchStats.Series

/-- Counts a value in its bin; `none` if there is no such bin. -/
def tally? (lo width : Binary64) (bins : Nat) (counts : Array Nat) (value : Binary64) :
    Option (Array Nat) :=
  let bin := binIndex lo width bins value
  if bin < counts.size then some (counts.modify bin (· + 1)) else none

@[simp] theorem binIndex_lt {bins : Nat} (nonzero : bins ≠ 0) (lo width value : Binary64) :
    binIndex lo width bins value < bins := by
  have held : binIndex lo width bins value ≤ bins - 1 := Binary64.clampToNat_le _ _
  omega

/-- One bin after the other is found, and the counts are those of the histogram. -/
theorem foldlM_tally? {bins : Nat} (nonzero : bins ≠ 0) (lo width : Binary64)
    (values : List Binary64) :
    values.foldlM (tally? lo width bins) (Array.replicate bins 0) =
      some (binCounts lo width bins values) := by
  have found (counts : Array Nat) (size : counts.size = bins) :
      values.foldlM (tally? lo width bins) counts =
        some (values.foldl (fun counts value =>
          counts.modify (binIndex lo width bins value) (· + 1)) counts) := by
    induction values generalizing counts with
    | nil => rfl
    | cons value rest inductionHypothesis =>
      have inside : binIndex lo width bins value < counts.size := by
        rw [size]
        exact binIndex_lt nonzero lo width value
      rw [List.foldlM_cons, tally?, if_pos inside]
      apply inductionHypothesis
      rw [Array.size_modify, size]
  exact found _ Array.size_replicate

theorem sum_countP_index {bins : Nat} {index : Binary64 → Nat} (inside : ∀ v, index v < bins)
    (values : List Binary64) :
    ∑ i ∈ Finset.range bins, values.countP (fun v => index v = i) = values.length := by
  induction values with
  | nil => simp
  | cons value rest inductionHypothesis =>
    have once : ∑ i ∈ Finset.range bins, (if index value = i then 1 else 0) = 1 := by
      rw [Finset.sum_ite_eq, if_pos (Finset.mem_range.2 (inside value))]
    simp only [List.countP_cons, decide_eq_true_eq, Finset.sum_add_distrib, inductionHypothesis,
      once, List.length_cons]

theorem toList_binCounts (lo width : Binary64) (bins : Nat) (values : List Binary64) :
    (binCounts lo width bins values).toList =
      (List.range bins).map fun i => values.countP fun v => binIndex lo width bins v = i := by
  apply List.ext_getElem?
  intro i
  by_cases inside : i < bins
  · rw [getElem?_binCounts inside, List.getElem?_map, List.getElem?_range inside, Option.map_some]
  · have length := length_binCounts lo width bins values
    rw [List.getElem?_eq_none (by omega), List.getElem?_eq_none (by simpa using not_lt.1 inside)]

theorem histogram_of_range {values : List Binary64} (bins : Nat) {least greatest : Binary64}
    (range : range? (values.filter Binary64.isFinite) = some (least, greatest)) :
    ∃ (lo width : Binary64) (edge : Nat → Binary64), histogram values bins =
      (List.range bins).map fun i => ⟨edge i, edge (i + 1),
        (values.filter Binary64.isFinite).countP fun v => binIndex lo width bins v = i⟩ := by
  let lo := (widened least greatest).1
  let hi := (widened least greatest).2
  let width := (hi.sub lo).div (.ofNat bins)
  refine ⟨lo, width, fun i => if i = bins then hi else edge lo width i, ?_⟩
  unfold histogram
  simp only [range]
  rw [toList_binCounts, List.mapIdx_eq_zipIdx_map]
  apply List.ext_getElem?
  intro i
  by_cases inside : i < bins
  · simp [List.getElem?_range inside, inside.ne, lo, hi, width]
  · simp [not_lt.1 inside]

@[simp] theorem histogram_of_no_range {values : List Binary64} {bins : Nat}
    (range : range? (values.filter Binary64.isFinite) = none) : histogram values bins = [] := by
  unfold histogram
  simp only [range]

@[simp]
theorem range?_eq_none_iff {values : List Binary64} : range? values = none ↔ values = [] := by
  cases values with
  | nil => exact iff_of_true rfl rfl
  | cons first rest => exact iff_of_false (Option.some_ne_none _) (List.cons_ne_nil _ _)

end BenchStats.Series

namespace BenchStats.Report

/-- The rows of a group, one for each bin: a row ends at the edge where the next one starts, and
together they count a number of values. -/
def Tiles (key : String) (bins total : Nat) (rows : List (List String)) : Prop :=
  ∃ (edge : Nat → Binary64) (count : Nat → Nat),
    rows = (List.range bins).map (fun i : Nat => [key, Number.intText i, Number.floatText (edge i),
      Number.floatText (edge (i + 1)), Number.intText (count i)]) ∧
    ∑ i ∈ Finset.range bins, count i = total

/-- A histogram finds the bin of every value, and the rows of each group with finite values tile its
range and count these values. -/
def KeepsValues (groups : Groups) (bins : Nat) : Prop :=
  (∀ (lo width : Binary64) (values : List Binary64),
    values.foldlM (Series.tally? lo width bins) (Array.replicate bins 0) =
      some (Series.binCounts lo width bins values)) ∧
  ∃ parts : List (List (List String)),
    histogram groups bins = .ok ⟨["group", "bin", "lower", "upper", "count"], parts.flatten⟩ ∧
    List.Forall₂ (fun group rows =>
      if group.2.any Binary64.isFinite then
        Tiles group.1 bins (group.2.countP Binary64.isFinite) rows
      else rows = []) groups parts

theorem tiles_histogramRows {bins : Nat} (nonzero : bins ≠ 0) (key : String)
    {values : List Binary64} (finite : values.filter Binary64.isFinite ≠ []) :
    Tiles key bins (values.countP Binary64.isFinite) (histogramRows bins key values) := by
  obtain ⟨⟨least, greatest⟩, range⟩ :=
    Option.ne_none_iff_exists'.1 (mt Series.range?_eq_none_iff.1 finite)
  obtain ⟨lo, width, edge, bars⟩ := Series.histogram_of_range bins range
  refine ⟨edge, fun i => (values.filter Binary64.isFinite).countP fun v =>
    Series.binIndex lo width bins v = i, ?_, ?_⟩
  · rw [histogramRows, bars]
    apply List.ext_getElem?
    intro i
    by_cases inside : i < bins
    · simp [List.getElem?_range inside]
    · simp [not_lt.1 inside]
  · rw [Series.sum_countP_index fun v => Series.binIndex_lt nonzero lo width v,
      List.countP_eq_length_filter]

@[simp] theorem histogramRows_of_no_finite (bins : Nat) (key : String) {values : List Binary64}
    (finite : values.filter Binary64.isFinite = []) : histogramRows bins key values = [] := by
  rw [histogramRows, Series.histogram_of_no_range (Series.range?_eq_none_iff.2 finite)]
  rfl

/-- A histogram with at least one bin loses no finite value, counts none twice and leaves no gap. -/
theorem histogram_keeps_values (groups : Groups) {bins : Nat} (nonzero : bins ≠ 0) :
    KeepsValues groups bins := by
  refine ⟨Series.foldlM_tally? nonzero, groups.map fun group => histogramRows bins group.1 group.2,
    ?_, ?_⟩
  · rw [histogram, if_neg nonzero, List.flatMap_def]
  · rw [List.forall₂_map_right_iff, List.forall₂_same]
    rintro ⟨key, values⟩ -
    dsimp only
    split
    next some =>
      apply tiles_histogramRows nonzero
      simpa [List.filter_eq_nil_iff] using some
    next none =>
      apply histogramRows_of_no_finite
      simpa [List.filter_eq_nil_iff] using none

/-- The width of the first group is infinite, the second has no finite value, and the width of the
third is zero although its range is widened. -/
theorem histogram_keeps_values_extreme : KeepsValues
    [("a", [.ofRat false (2 ^ 1023), .ofRat false (-2 ^ 1023), .nan]), ("b", [.infinite true, .nan]),
      ("c", [.ofRat false (2 ^ 1000)])] 3 :=
  histogram_keeps_values _ (by decide)

end BenchStats.Report
