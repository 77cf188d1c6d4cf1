import BenchStats.Proofs.Number.Written
import BenchStats.Proofs.Series.Histogram
import BenchStats.Report.Groups

/-!
# Histograms and their written edges

The edges in the rows of a histogram are read back, and the values between them are counted again.
Both counts agree where a group and its edges lie on a grid.  Elsewhere an edge and the quotient
that places a value are rounded apart, so a value on an edge may be counted below it.
-/

namespace BenchStats.Report

open Series (between EvenGrid)

/-- The row of a bin counts the values between the edges that are written in it. -/
def CountsBetweenEdges (key : String) (values : List Binary64) (bins i : Nat)
    (row : List String) : Prop :=
  ∃ (lowerCell upperCell : String) (lower upper : Number),
    row = [key, Number.intText i, lowerCell, upperCell, Number.intText
      (values.countP (between (i + 1 = bins) lower.toBinary64 upper.toBinary64) : Nat)] ∧
    Number.read? lowerCell = some lower ∧ Number.read? upperCell = some upper

/-- A histogram has a row for every bin of every group that is not empty, with a true count. -/
def CountsMatchEdges (groups : Groups) (bins : Nat) : Prop :=
  ∃ (t : Table) (parts : List (List (List String))), histogram groups bins = .ok t ∧
    t.rows = parts.flatten ∧
    List.Forall₂ (fun group rows => rows.length = (if group.2 = [] then 0 else bins) ∧
      ∀ i row, rows[i]? = some row → CountsBetweenEdges group.1 group.2 bins i row) groups parts

@[simp] theorem numericKey?_unsigned (x : Binary64) :
    (if x = .negativeZero then .zero else x : Binary64).numericKey? = x.numericKey? := by
  split
  next zero =>
    rw [zero]
    rfl
  next => rfl

@[simp] theorem between_unsigned (last : Bool) (lower upper : Binary64) :
    between last (if lower = .negativeZero then .zero else lower)
      (if upper = .negativeZero then .zero else upper) = between last lower upper := by
  funext value
  simp only [between, Binary64.le, Binary64.lt, numericKey?_unsigned]

@[simp]
theorem histogramRows_of_empty (bins : Nat) (key : String) : histogramRows bins key [] = [] := rfl

theorem countsBetweenEdges_of_grid {values : List Binary64} {bins : Nat}
    {exponent first width : Int} (grid : EvenGrid values bins exponent first width)
    (nonzero : bins ≠ 0) (key : String) :
    (histogramRows bins key values).length = bins ∧
      ∀ i row, (histogramRows bins key values)[i]? = some row →
        CountsBetweenEdges key values bins i row := by
  obtain ⟨length, counts⟩ := grid.histogram_counts nonzero
  refine ⟨by rw [histogramRows, List.length_mapIdx, length], fun i row member => ?_⟩
  rw [histogramRows, List.getElem?_mapIdx, Option.map_eq_some_iff] at member
  obtain ⟨bin, found, rfl⟩ := member
  obtain ⟨lowerNumber, upperNumber, count⟩ := counts i bin found
  obtain ⟨lower, lowerRead, -, lowerValue⟩ := Number.read?_floatText lowerNumber
  obtain ⟨upper, upperRead, -, upperValue⟩ := Number.read?_floatText upperNumber
  refine ⟨_, _, lower, upper, ?_, lowerRead, upperRead⟩
  simp [lowerValue, upperValue, count]

/-- A histogram counts the values between its written edges, where the values of every group and
the edges of its bins lie on a grid. -/
theorem histogram_matches_edges (groups : Groups) (bins : Nat) (nonzero : bins ≠ 0)
    (even : ∀ group ∈ groups, group.2 = [] ∨
      ∃ exponent first width, EvenGrid group.2 bins exponent first width) :
    CountsMatchEdges groups bins := by
  refine ⟨_, groups.map fun group => histogramRows bins group.1 group.2, if_neg nonzero, ?_, ?_⟩
  · rw [List.flatMap_def]
  · rw [List.forall₂_map_right_iff, List.forall₂_same]
    rintro ⟨key, values⟩ member
    rcases even _ member with rfl | ⟨exponent, first, width, grid⟩
    · exact ⟨rfl, fun i row none => absurd none (by simp)⟩
    · rw [if_neg grid.spans.ne_nil]
      exact countsBetweenEdges_of_grid grid nonzero key

/-- The middle value of the first group is an edge, and a single value has half a unit around it. -/
theorem histogram_matches_edges_whole : CountsMatchEdges
    [("a", [.ofNat 0, .ofNat 1, .ofNat 2]), ("b", []), ("c", [.ofNat 5])] 2 := by
  have spread : EvenGrid [.ofNat 0, .ofNat 1, .ofNat 2] 2 0 0 1 := by
    refine ⟨by decide, by decide, by decide, by decide, by decide, by decide, ?_, ?_⟩
    · apply Series.Spans.proper (.ofNat 0) (.ofNat 2)
      · simp
      · simp
      · decide +kernel
      · decide +kernel
      · decide +kernel
      · simp only [List.forall_mem_cons, List.not_mem_nil, false_implies, implies_true, and_true]
        exact ⟨⟨0, by decide +kernel⟩, ⟨1, by decide +kernel⟩, ⟨2, by decide +kernel⟩⟩
    · simp only [List.forall_mem_cons, List.not_mem_nil, false_implies, implies_true, and_true]
      exact ⟨⟨0, by decide +kernel⟩, ⟨1, by decide +kernel⟩, ⟨2, by decide +kernel⟩⟩
  have single : EvenGrid [.ofNat 5] 2 (-1) 9 1 := by
    have five : (Binary64.ofNat 5).value? = some 5 := by decide +kernel
    refine ⟨by decide, by decide, by decide, by decide, by decide, by decide, ?_, ?_⟩
    · have around : Series.Spans [.ofNat 5] (5 - 1 / 2) (5 + 1 / 2) :=
        .single (by simp) (by simp)
      norm_num at around ⊢
      exact around
    · rw [List.forall_mem_singleton]
      exact ⟨10, five.trans (by norm_num)⟩
  apply histogram_matches_edges _ _ (by decide)
  simp only [List.forall_mem_cons, List.not_mem_nil, false_implies, implies_true, and_true]
  exact ⟨Or.inr ⟨0, 0, 1, spread⟩, Or.inl trivial, Or.inr ⟨-1, 9, 1, single⟩⟩

/-- Two, five and eight tenths, none of which lie on a grid of powers of two but the middle one. -/
def tenths : List Binary64 := [.ofRat false (1 / 5), .ofRat false (1 / 2), .ofRat false (4 / 5)]

/-- The middle value is the written edge between two bins, yet it is counted in the first. -/
theorem not_countsMatchEdges_tenths : ¬ CountsMatchEdges [("g", tenths)] 2 := by
  rintro ⟨t, parts, made, rows, each⟩
  obtain ⟨part, others, ⟨-, counts⟩, rest, rfl⟩ := List.forall₂_cons_left_iff.1 each
  rw [List.forall₂_nil_left_iff.1 rest, List.flatten_singleton] at rows
  have written : histogram [("g", tenths)] 2 = .ok ⟨["group", "bin", "lower", "upper", "count"],
      [["g", "0", "0.2", "0.5", "2"], ["g", "1", "0.5", "0.8", "1"]]⟩ := by decide +kernel
  rw [written] at made
  cases made
  have first : part[0]? = some ["g", "0", "0.2", "0.5", "2"] := by rw [← rows]; rfl
  obtain ⟨lowerCell, upperCell, lower, upper, row, lowerRead, upperRead⟩ := counts 0 _ first
  simp only [List.cons.injEq, and_true] at row
  obtain ⟨-, -, rfl, rfl, count⟩ := row
  have lowest : Number.read? "0.2" = some (.float (.ofRat false (1 / 5))) := by decide +kernel
  have middle : Number.read? "0.5" = some (.float (.ofRat false (1 / 2))) := by decide +kernel
  cases lowest.symm.trans lowerRead
  cases middle.symm.trans upperRead
  exact absurd count (by decide +kernel)

end BenchStats.Report
