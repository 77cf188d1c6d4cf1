import BenchStats.Proofs.Binary64.Arithmetic
import BenchStats.Series.Histogram

/-!
# Bins on a grid

A value is counted in the bin that the quotient of its distance and the width falls into, and the
edges are computed from the width one by one.  Where all of these are a few steps of one grid,
only the quotient is rounded, and it stays below the next whole number.  So the counts are those
between the edges.
-/

namespace BenchStats.Series

open Binary64

/-- The interval that a series is divided over: from its least to its greatest value, or half a
unit to both sides of its only one. -/
inductive Spans (values : List Binary64) : Rat → Rat → Prop where
  | proper {lower upper : Rat} (least greatest : Binary64) : least ∈ values → greatest ∈ values →
      least.value? = some lower → greatest.value? = some upper → lower < upper →
      (∀ v ∈ values, ∃ x, v.value? = some x ∧ lower ≤ x ∧ x ≤ upper) → Spans values lower upper
  | single {only : Rat} : values ≠ [] → (∀ v ∈ values, v.value? = some only) →
      Spans values (only - 1 / 2) (only + 1 / 2)

/-- A number that is some steps of a power of two away from zero. -/
def AtStep (exponent steps : Int) (x : Binary64) : Prop :=
  x.value? = some (steps * (2 : Rat) ^ exponent)

instance (exponent steps : Int) (x : Binary64) : Decidable (AtStep exponent steps x) :=
  inferInstanceAs (Decidable (_ = _))

/-- The edges of equally wide bins and the values in them lie on a grid, a few steps apart. -/
structure EvenGrid (values : List Binary64) (bins : Nat) (exponent first width : Int) : Prop where
  fromBelow : -1074 ≤ exponent
  fromAbove : exponent ≤ 970
  width_pos : 0 < width
  few : bins * width ≤ 2 ^ 52
  firstFew : first.natAbs ≤ 2 ^ 53
  lastFew : (first + bins * width).natAbs ≤ 2 ^ 53
  spans : Spans values (first * (2 : Rat) ^ exponent)
    ((first + bins * width : Int) * (2 : Rat) ^ exponent)
  onGrid : ∀ v ∈ values, ∃ n, AtStep exponent n v

/-- Whether a value lies in a bin with these edges; the upper one belongs to the last bin only. -/
def between (last : Bool) (lower upper value : Binary64) : Bool :=
  lower.le value && if last then value.le upper else value.lt upper

section Spans

variable {values : List Binary64} {lower upper : Rat}

theorem Spans.inside (spans : Spans values lower upper) :
    ∀ v ∈ values, ∃ x, v.value? = some x ∧ lower ≤ x ∧ x ≤ upper := by
  cases spans with
  | proper _ _ _ _ _ _ _ inside => exact inside
  | single nonempty same =>
    intro v member
    exact ⟨_, same v member, by linarith, by linarith⟩

theorem Spans.ne_nil (spans : Spans values lower upper) : values ≠ [] := by
  cases spans with
  | proper _ _ member => exact List.ne_nil_of_mem member
  | single nonempty => exact nonempty

end Spans

section Range

theorem foldl_range {values seen : List Binary64} {least greatest : Binary64}
    (numbers : ∀ v ∈ values, v.isNaN = false) (leastSeen : least ∈ seen)
    (greatestSeen : greatest ∈ seen)
    (between : ∀ v ∈ seen, least.le v = true ∧ v.le greatest = true) :
    ∃ lo hi, values.foldl (fun (lo, hi) value => (lo.min value, hi.max value))
        (least, greatest) = (lo, hi) ∧ lo ∈ seen ++ values ∧ hi ∈ seen ++ values ∧
      ∀ v ∈ seen ++ values, lo.le v = true ∧ v.le hi = true := by
  induction values generalizing seen least greatest with
  | nil =>
    rw [List.append_nil]
    exact ⟨least, greatest, rfl, leastSeen, greatestSeen, between⟩
  | cons value rest inductionHypothesis =>
    have number := numbers value List.mem_cons_self
    have leastNumber := isNaN_left (between least leastSeen).1
    have greatestNumber := isNaN_right (between greatest greatestSeen).2
    obtain ⟨lower, lowerLe, lowerLe'⟩ := min_cases leastNumber number
    obtain ⟨upper, upperGe, upperGe'⟩ := max_cases greatestNumber number
    have shift : seen ++ value :: rest = (seen ++ [value]) ++ rest := by simp
    rw [List.foldl_cons, shift]
    apply inductionHypothesis
    · exact fun v member => numbers v (List.mem_cons_of_mem _ member)
    · rcases lower with same | same <;> simp [same, leastSeen]
    · rcases upper with same | same <;> simp [same, greatestSeen]
    · intro v member
      rcases List.mem_append.1 member with old | new
      · exact ⟨le_trans lowerLe (between v old).1, le_trans (between v old).2 upperGe⟩
      · rw [List.mem_singleton.1 new]
        exact ⟨lowerLe', upperGe'⟩

theorem range?_of_ne_nil {values : List Binary64} (nonempty : values ≠ [])
    (numbers : ∀ v ∈ values, v.isNaN = false) :
    ∃ lo hi, range? values = some (lo, hi) ∧ lo ∈ values ∧ hi ∈ values ∧
      ∀ v ∈ values, lo.le v = true ∧ v.le hi = true := by
  cases values with
  | nil => exact absurd rfl nonempty
  | cons first rest =>
    have number := numbers first List.mem_cons_self
    have start : ∀ v ∈ [first], first.le v = true ∧ v.le first = true := by
      simpa using le_refl number
    obtain ⟨lo, hi, range, loSeen, hiSeen, between⟩ :=
      foldl_range numbers List.mem_cons_self List.mem_cons_self start
    refine ⟨lo, hi, congrArg some range, ?_, ?_, ?_⟩
    · simpa using loSeen
    · simpa using hiSeen
    · exact fun v member => between v (List.mem_append_right _ member)

theorem widened_of_ne {lo hi : Binary64} {l h : Rat} (lowest : lo.value? = some l)
    (highest : hi.value? = some h) (apart : l ≠ h) : widened lo hi = (lo, hi) := by
  have different : lo.numericEq hi = false := by
    rwa [← Bool.not_eq_true, numericEq_iff_of_value? lowest highest]
  rw [widened, different]
  rfl

@[simp] theorem value?_half : (ofRat false (1 / 2)).value? = some (1 / 2) := by
  have kept := value?_ofRat_of_digits false 1 (-1) (by decide) (by decide) (by decide)
  norm_num at kept ⊢
  exact kept

theorem widened_of_eq {lo hi : Binary64} {only : Rat} (lowest : lo.value? = some only)
    (highest : hi.value? = some only) :
    ∃ s t, widened lo hi = (ofRat s (only - 1 / 2), ofRat t (only + 1 / 2)) := by
  obtain ⟨s, difference⟩ := sub_eq_ofRat lowest value?_half
  obtain ⟨t, total⟩ := add_eq_ofRat highest value?_half
  refine ⟨s, t, ?_⟩
  rw [widened, (numericEq_iff_of_value? lowest highest).2 rfl, if_pos rfl, difference, total]

/-- The interval of a series is what its range is widened to, where its ends are numbers. -/
theorem widened_of_spans {values : List Binary64} {lower upper : Rat}
    (spans : Spans values lower upper) (lowerKept : (ofRat false lower).value? = some lower)
    (upperKept : (ofRat false upper).value? = some upper) :
    ∃ least greatest, range? values = some (least, greatest) ∧
      (widened least greatest).1.value? = some lower ∧
      (widened least greatest).2.value? = some upper := by
  have numbers : ∀ v ∈ values, v.isNaN = false := by
    intro v member
    obtain ⟨x, value, -, -⟩ := spans.inside v member
    exact isNaN_eq_false_iff.2 ⟨_, numericKey?_of_value? value⟩
  obtain ⟨lo, hi, range, loMember, hiMember, between⟩ := range?_of_ne_nil spans.ne_nil numbers
  refine ⟨lo, hi, range, ?_⟩
  cases spans with
  | proper least greatest leastMember greatestMember leastValue greatestValue proper inside =>
    obtain ⟨l, loValue, lowerLe, -⟩ := inside lo loMember
    obtain ⟨h, hiValue, -, leUpper⟩ := inside hi hiMember
    have leLower := (le_iff_of_value? loValue leastValue).1 (between least leastMember).1
    have upperLe := (le_iff_of_value? greatestValue hiValue).1 (between greatest greatestMember).2
    have lowerSame : l = lower := le_antisymm leLower lowerLe
    have upperSame : h = upper := le_antisymm leUpper upperLe
    subst lowerSame upperSame
    rw [widened_of_ne loValue hiValue proper.ne]
    exact ⟨loValue, hiValue⟩
  | single nonempty same =>
    obtain ⟨s, t, around⟩ := widened_of_eq (same lo loMember) (same hi hiMember)
    rw [around]
    exact ⟨value?_ofRat s lowerKept, value?_ofRat t upperKept⟩

end Range

section Quotients

/-- The digits of a quotient leave room for steps that are finer than one part of the divisor. -/
theorem exists_shift {distance width : Nat} (positive : 0 < width) (widthFew : width ≤ 2 ^ 52)
    (distanceFew : distance ≤ 2 ^ 52) :
    ∃ shift ≤ 52, width ≤ 2 ^ shift ∧ (distance / width + 1) * 2 ^ shift ≤ 2 ^ 53 := by
  have down : width * (distance / width) ≤ distance := Nat.mul_div_le distance width
  generalize distance / width = k at *
  have spread : width * 2 ^ Nat.log 2 k ≤ 2 ^ 52 := by
    rcases Nat.eq_zero_or_pos k with rfl | nonzero
    · simpa using widthFew
    · have leading := Nat.pow_log_le_self 2 nonzero.ne'
      exact (Nat.mul_le_mul_left width leading).trans (down.trans distanceFew)
  have logLe : Nat.log 2 k ≤ 52 := by
    refine (Nat.pow_le_pow_iff_right (by decide : 1 < 2)).1 (le_trans ?_ spread)
    exact Nat.le_mul_of_pos_left _ positive
  obtain ⟨shift, bits⟩ : ∃ shift, Nat.log 2 k + shift = 52 := ⟨52 - Nat.log 2 k, by omega⟩
  refine ⟨shift, by omega, ?_, ?_⟩
  · rw [← bits, pow_add, mul_comm] at spread
    exact Nat.le_of_mul_le_mul_left spread (Nat.two_pow_pos _)
  · have order : k < 2 ^ (Nat.log 2 k + 1) := Nat.lt_pow_succ_log_self (by decide) k
    calc (k + 1) * 2 ^ shift
      _ ≤ 2 ^ (Nat.log 2 k + 1) * 2 ^ shift := Nat.mul_le_mul_right _ order
      _ = 2 ^ 53 := by
        rw [← pow_add]
        congr 1
        omega

theorem exists_value?_of_step_below {n shift : Nat} (positive : 0 < n) (fine : shift ≤ 52)
    (few : n * 2 ^ shift ≤ 2 ^ 53) :
    ∃ x : Binary64, x.value? = some (n - ((2 : Rat) ^ shift)⁻¹) := by
  have digits : ((n * 2 ^ shift : Nat) - 1 : Int).natAbs ≤ 2 ^ 53 := by
    have := Nat.mul_pos positive (Nat.two_pow_pos shift)
    omega
  have kept := value?_ofRat_of_digits false _ (-shift) digits (by omega) (by omega)
  have unit : (2 : Rat) ^ shift * ((2 : Rat) ^ shift)⁻¹ = 1 := mul_inv_cancel₀ (by positivity)
  refine ⟨_, kept.trans (congrArg some ?_)⟩
  rw [zpow_neg, zpow_natCast]
  push_cast
  rw [sub_mul, one_mul, mul_assoc, unit, mul_one]

/-- A quotient is rounded without reaching the next whole number. -/
theorem floor_quotient (negative : Bool) {distance width : Nat} (positive : 0 < width)
    (widthFew : width ≤ 2 ^ 52) (distanceFew : distance ≤ 2 ^ 52) :
    ∃ q, (ofRat negative ((distance : Rat) / width)).value? = some q ∧
      q.floor = (distance / width : Nat) := by
  have divisor : (0 : Rat) < width := by exact_mod_cast positive
  obtain ⟨shift, fine, widthLe, few⟩ := exists_shift positive widthFew distanceFew
  obtain ⟨x, topValue⟩ := exists_value?_of_step_below (Nat.succ_pos _) fine few
  have whole : distance / width ≤ 2 ^ 53 :=
    (Nat.div_le_self distance width).trans (distanceFew.trans (by decide))
  have bottomValue := value?_ofNat whole
  have above : ((distance / width : Nat) : Rat) ≤ (distance : Rat) / width := by
    rw [le_div_iff₀ divisor]
    exact_mod_cast Nat.div_mul_le_self distance width
  have below : (distance : Rat) / width ≤
      (distance / width + 1 : Nat) - ((2 : Rat) ^ shift)⁻¹ := by
    have room : (width : Rat) * ((2 : Rat) ^ shift)⁻¹ ≤ 1 := by
      rw [← div_eq_mul_inv, div_le_one (by positivity)]
      exact_mod_cast widthLe
    have next : (distance : Rat) + 1 ≤ width * (distance / width + 1 : Nat) := by
      exact_mod_cast Nat.lt_mul_div_succ distance positive
    rw [div_le_iff₀ divisor]
    linarith
  -- Both bounds are numbers with this whole part, so what the quotient rounds to has it as well.
  obtain ⟨q, value, least, greatest⟩ := exists_value?_of_between bottomValue topValue
    (le_ofRat negative bottomValue above) (ofRat_le negative topValue below)
  have floor : ⌊q⌋ = ((distance / width : Nat) : Int) := by
    refine Int.floor_eq_iff.2 ⟨by exact_mod_cast least, ?_⟩
    have step : 0 < ((2 : Rat) ^ shift)⁻¹ := by positivity
    rw [Int.cast_natCast]
    push_cast at greatest
    linarith
  exact ⟨q, value, floor⟩

end Quotients

section Steps

variable {exponent m n : Int} {a b : Binary64} (fromBelow : -1074 ≤ exponent)
  (fromAbove : exponent ≤ 970) (left : AtStep exponent m a) (right : AtStep exponent n b)

include left right

theorem AtStep.le_iff : a.le b = true ↔ m ≤ n := by
  rw [le_iff_of_value? left right, mul_le_mul_iff_of_pos_right (two_zpow_pos exponent),
    Int.cast_le]

theorem AtStep.lt_iff : a.lt b = true ↔ m < n := by
  rw [lt_iff_of_value? left right, mul_lt_mul_iff_of_pos_right (two_zpow_pos exponent),
    Int.cast_lt]

include fromBelow fromAbove

theorem AtStep.sub (few : (m - n).natAbs ≤ 2 ^ 53) : AtStep exponent (m - n) (a.sub b) := by
  obtain ⟨s, difference⟩ := sub_eq_ofRat left right
  rw [← sub_mul, ← Int.cast_sub] at difference
  rw [difference]
  exact value?_ofRat_of_digits s _ _ few fromBelow fromAbove

theorem AtStep.fma {i : Nat} (index : i ≤ 2 ^ 53) (few : (n + i * m).natAbs ≤ 2 ^ 53) :
    AtStep exponent (n + i * m) ((ofNat i).fma a b) := by
  obtain ⟨s, fused⟩ := fma_eq_ofRat (value?_ofNat index) left right
  have total : (i : Rat) * (m * (2 : Rat) ^ exponent) + n * (2 : Rat) ^ exponent =
      ((n + i * m : Int) : Rat) * (2 : Rat) ^ exponent := by
    push_cast
    ring
  rw [fused, total]
  exact value?_ofRat_of_digits s _ _ few fromBelow fromAbove

end Steps

section Counting

@[simp] theorem length_binCounts (lo width : Binary64) (bins : Nat) (values : List Binary64) :
    (binCounts lo width bins values).toList.length = bins := by
  have kept (start : Array Nat) :
      (values.foldl (fun counts value => counts.modify (binIndex lo width bins value) (· + 1))
        start).size = start.size := by
    induction values generalizing start with
    | nil => rfl
    | cons value rest inductionHypothesis =>
      rw [List.foldl_cons, inductionHypothesis, Array.size_modify]
  rw [Array.length_toList, binCounts, kept, Array.size_replicate]

theorem getElem?_binCounts {lo width : Binary64} {bins i : Nat} (inside : i < bins)
    (values : List Binary64) :
    (binCounts lo width bins values).toList[i]? =
      some (values.countP fun v => binIndex lo width bins v = i) := by
  have counted (start : Array Nat) (size : start.size = bins) :
      (values.foldl (fun counts value => counts.modify (binIndex lo width bins value) (· + 1))
        start)[i]? = start[i]?.map
          (· + values.countP fun v => binIndex lo width bins v = i) := by
    induction values generalizing start with
    | nil => simp
    | cons value rest inductionHypothesis =>
      rw [List.foldl_cons, inductionHypothesis _ (by simp [size]), List.countP_cons,
        Array.getElem?_modify]
      have member : start[i]? = some start[i] := Array.getElem?_eq_getElem _
      rw [member]
      by_cases here : binIndex lo width bins value = i
      · simp [here]
        omega
      · simp [here]
  rw [Array.getElem?_toList, binCounts, counted _ (by simp)]
  simp [inside]

end Counting

namespace EvenGrid

variable {values : List Binary64} {bins : Nat} {exponent first width : Int}
  (grid : EvenGrid values bins exponent first width)

include grid

theorem few_of_le {i : Nat} (inside : i ≤ bins) : (first + i * width).natAbs ≤ 2 ^ 53 := by
  have nonneg : 0 ≤ (i : Int) * width := Int.mul_nonneg (Int.natCast_nonneg i) grid.width_pos.le
  have le : (i : Int) * width ≤ bins * width :=
    Int.mul_le_mul_of_nonneg_right (by exact_mod_cast inside) grid.width_pos.le
  have firstFew := grid.firstFew
  have lastFew := grid.lastFew
  omega

theorem bins_le : bins ≤ 2 ^ 52 := by
  have few := grid.few
  have le : (bins : Int) * 1 ≤ bins * width :=
    Int.mul_le_mul_of_nonneg_left grid.width_pos (Int.natCast_nonneg bins)
  omega

theorem width_le (nonzero : bins ≠ 0) : width ≤ 2 ^ 52 := by
  have few := grid.few
  have le : 1 * width ≤ bins * width :=
    Int.mul_le_mul_of_nonneg_right (by omega) grid.width_pos.le
  omega

theorem exists_distance {v : Binary64} (member : v ∈ values) :
    ∃ distance : Nat, AtStep exponent (first + distance) v ∧ (distance : Int) ≤ bins * width := by
  obtain ⟨n, value⟩ := grid.onGrid v member
  obtain ⟨x, value', least, greatest⟩ := grid.spans.inside v member
  rw [value, Option.some.injEq] at value'
  rw [← value', mul_le_mul_iff_of_pos_right (two_zpow_pos exponent), Int.cast_le] at least greatest
  obtain ⟨distance, rfl⟩ : ∃ distance : Nat, n = first + distance :=
    ⟨(n - first).toNat, by omega⟩
  exact ⟨distance, value, by omega⟩

theorem isFinite {v : Binary64} (member : v ∈ values) : v.isFinite = true := by
  obtain ⟨n, value⟩ := grid.onGrid v member
  obtain ⟨s, m, rfl, -⟩ := eq_finite_of_value? value
  rfl

variable {lo hi : Binary64} (lowest : AtStep exponent first lo)

include lowest

theorem atStep_width (highest : AtStep exponent (first + bins * width) hi) (nonzero : bins ≠ 0) :
    AtStep exponent width ((hi.sub lo).div (.ofNat bins)) := by
  have widthLe := grid.width_le nonzero
  have positive := grid.width_pos
  have few := grid.few
  have nonneg : 0 ≤ (bins : Int) * width := Int.mul_nonneg (Int.natCast_nonneg bins) positive.le
  have total := highest.sub grid.fromBelow grid.fromAbove lowest (by omega)
  have count := value?_ofNat (grid.bins_le.trans (by decide))
  obtain ⟨t, quotient⟩ := div_eq_ofRat total count (by exact_mod_cast nonzero)
  have share : ((first + bins * width - first : Int) : Rat) * (2 : Rat) ^ exponent / bins =
      (width : Rat) * (2 : Rat) ^ exponent := by
    push_cast
    field_simp
    ring
  rw [quotient, share]
  exact value?_ofRat_of_digits t _ _ (by omega) grid.fromBelow grid.fromAbove

variable {step : Binary64} (stepped : AtStep exponent width step)

include stepped

theorem atStep_edge {i : Nat} (inside : i ≤ bins) :
    AtStep exponent (first + i * width) (edge lo step i) :=
  stepped.fma grid.fromBelow grid.fromAbove lowest
    (inside.trans (grid.bins_le.trans (by decide))) (grid.few_of_le inside)

variable (nonzero : bins ≠ 0)

include nonzero

/-- The bin of a value is the whole part of its distance in widths. -/
theorem binIndex_eq {v : Binary64} {distance : Nat} (value : AtStep exponent (first + distance) v)
    (inside : (distance : Int) ≤ bins * width) :
    binIndex lo step bins v = Min.min (bins - 1) (distance / width.toNat) := by
  have few := grid.few
  have widthLe := grid.width_le nonzero
  obtain ⟨parts, rfl⟩ := Int.eq_ofNat_of_zero_le grid.width_pos.le
  have positive : 0 < parts := by exact_mod_cast grid.width_pos
  have distanceFew : distance ≤ 2 ^ 52 := by omega
  have partsFew : parts ≤ 2 ^ 52 := by omega
  have offset := value.sub grid.fromBelow grid.fromAbove lowest (by omega)
  have unit : (2 : Rat) ^ exponent ≠ 0 := (two_zpow_pos _).ne'
  have divisor : ((parts : Int) : Rat) * (2 : Rat) ^ exponent ≠ 0 :=
    mul_ne_zero (by exact_mod_cast positive.ne') unit
  obtain ⟨t, quotient⟩ := div_eq_ofRat offset stepped divisor
  have widths : ((first + distance - first : Int) : Rat) * (2 : Rat) ^ exponent /
      ((parts : Int) * (2 : Rat) ^ exponent) = (distance : Rat) / parts := by
    rw [mul_div_mul_right _ _ unit, add_sub_cancel_left, Int.cast_natCast, Int.cast_natCast]
  obtain ⟨q, rounded, floor⟩ := floor_quotient t positive partsFew distanceFew
  rw [← widths, ← quotient] at rounded
  obtain ⟨u, floored⟩ := floor_eq_ofRat rounded
  have whole : ((v.sub lo).div step).floor.value? = some ((distance / parts : Nat) : Rat) := by
    have few : distance / parts ≤ 2 ^ 53 :=
      (Nat.div_le_self _ _).trans (distanceFew.trans (by decide))
    rw [floored, floor, Int.cast_natCast]
    exact value?_ofRat u (value?_ofNat few)
  rw [binIndex, clampToNat_of_value? _ whole, ← Int.cast_natCast, Rat.floor_intCast,
    Int.toNat_natCast, Int.toNat_natCast]

/-- A value is counted in the bin between whose edges it lies. -/
theorem binIndex_eq_iff {v lower upper : Binary64} (member : v ∈ values) {i : Nat}
    (inside : i < bins) (lowerStep : AtStep exponent (first + i * width) lower)
    (upperStep : AtStep exponent (first + (i + 1 : Nat) * width) upper) :
    binIndex lo step bins v = i ↔ between (i + 1 = bins) lower upper v = true := by
  obtain ⟨distance, value, distanceLe⟩ := grid.exists_distance member
  rw [grid.binIndex_eq lowest stepped nonzero value distanceLe, between, Bool.and_eq_true,
    lowerStep.le_iff value, Int.add_le_add_iff_left]
  obtain ⟨parts, rfl⟩ := Int.eq_ofNat_of_zero_le grid.width_pos.le
  have positive : 0 < parts := by exact_mod_cast grid.width_pos
  rw [Int.toNat_natCast]
  have indexed : Min.min (bins - 1) (distance / parts) = i ↔
      i * parts ≤ distance ∧ (i + 1 = bins ∨ distance < (i + 1) * parts) := by
    rw [← Nat.le_div_iff_mul_le positive, ← Nat.div_lt_iff_lt_mul positive]
    omega
  rw [indexed]
  apply and_congr
  · exact_mod_cast Iff.rfl
  · by_cases last : i + 1 = bins
    · simp only [last, true_or, decide_true, if_true, true_iff]
      rwa [value.le_iff upperStep, Int.add_le_add_iff_left, last]
    · simp only [last, false_or, decide_false, Bool.false_eq_true, if_false]
      rw [value.lt_iff upperStep, Int.add_lt_add_iff_left]
      exact_mod_cast Iff.rfl

end EvenGrid

/-- On a grid there are as many bins as asked for, and each holds the values between its edges. -/
theorem EvenGrid.histogram_counts {values : List Binary64} {bins : Nat}
    {exponent first width : Int} (grid : EvenGrid values bins exponent first width)
    (nonzero : bins ≠ 0) :
    (histogram values bins).length = bins ∧
      ∀ i bin, (histogram values bins)[i]? = some bin → bin.lower.isNaN = false ∧
        bin.upper.isNaN = false ∧
        bin.count = values.countP (between (i + 1 = bins) bin.lower bin.upper) := by
  have lowerKept := value?_ofRat_of_digits false _ _ grid.firstFew grid.fromBelow grid.fromAbove
  have upperKept := value?_ofRat_of_digits false _ _ grid.lastFew grid.fromBelow grid.fromAbove
  obtain ⟨least, greatest, range, lowest, highest⟩ :=
    widened_of_spans grid.spans lowerKept upperKept
  have finite : values.filter Binary64.isFinite = values :=
    List.filter_eq_self.2 fun v member => grid.isFinite member
  have stepped := grid.atStep_width lowest highest nonzero
  unfold histogram
  simp only [finite, range]
  generalize (widened least greatest).1 = lo at *
  generalize (widened least greatest).2 = hi at *
  generalize (hi.sub lo).div (.ofNat bins) = step at *
  have size : (binCounts lo step bins values).toList.length = bins := length_binCounts ..
  refine ⟨by rw [List.length_mapIdx, size], fun i bin member => ?_⟩
  have inside : i < bins := by
    obtain ⟨inside, -⟩ := List.getElem?_eq_some_iff.1 member
    rwa [List.length_mapIdx, size] at inside
  rw [List.getElem?_mapIdx, getElem?_binCounts inside, Option.map_some, Option.some.injEq] at member
  rw [← member]
  have lower := grid.atStep_edge lowest stepped inside.le
  have upper : AtStep exponent (first + (i + 1 : Nat) * width)
      (if i + 1 = bins then hi else edge lo step (i + 1)) := by
    split
    next last => rwa [last]
    next => exact grid.atStep_edge lowest stepped inside
  refine ⟨isNaN_eq_false_iff.2 ⟨_, numericKey?_of_value? lower⟩,
    isNaN_eq_false_iff.2 ⟨_, numericKey?_of_value? upper⟩, List.countP_congr fun v member => ?_⟩
  rw [decide_eq_true_eq]
  exact grid.binIndex_eq_iff lowest stepped nonzero member inside lower upper

end BenchStats.Series
