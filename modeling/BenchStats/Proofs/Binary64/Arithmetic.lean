import BenchStats.Binary64.Arithmetic
import BenchStats.Proofs.Binary64.Order
import Mathlib.Tactic.Ring

/-!
# Arithmetic on values

An operation on finite numbers is the operation on their values, rounded once.  Up to 53 binary
digits behind a power of two are a value of the format, so nothing is lost on them, and rounding
stays on its side of a power of two.  A number that is held between two others lies between them,
and holding keeps the order.
-/

namespace BenchStats

namespace Magnitude

/-- Digits behind a shift that fill at most two blocks are a significand, carried or not. -/
theorem value_of_rank {x : Magnitude} {digits shift : Nat}
    (rank : x.rank = digits + shift * blockSize) (most : digits ≤ 2 * blockSize)
    (kept : shift = 0 ∨ blockSize ≤ digits) :
    x.value = (digits : Rat) * (2 : Rat) ^ ((shift : Int) - 1074) := by
  rcases most.lt_or_eq with fewer | carried
  · have significand : x.significand = digits := by
      unfold Magnitude.significand
      unfold blockSize at *
      split <;> omega
    have exponent : x.exponent = (shift : Int) - 1074 := by
      unfold Magnitude.exponent
      unfold blockSize at *
      omega
    rw [value, significand, exponent]
  · have significand : x.significand = blockSize := by
      unfold Magnitude.significand
      unfold blockSize at *
      split <;> omega
    have exponent : x.exponent = (shift : Int) - 1074 + 1 := by
      unfold Magnitude.exponent
      unfold blockSize at *
      omega
    rw [value, significand, exponent, carried, zpow_add_one₀ (by norm_num)]
    push_cast
    ring

/-- Digits behind a power of two that the format has make up a magnitude. -/
theorem exists_value_eq {digits shift : Nat} (few : digits ≤ 2 * blockSize)
    (inRange : shift ≤ 2044) :
    ∃ x : Magnitude, x.value = (digits : Rat) * (2 : Rat) ^ ((shift : Int) - 1074) := by
  have kept {digits shift : Nat} (few : digits ≤ 2 * blockSize) (inRange : shift ≤ 2044)
      (full : shift = 0 ∨ blockSize ≤ digits) :
      ∃ x : Magnitude, x.value = (digits : Rat) * (2 : Rat) ^ ((shift : Int) - 1074) := by
    have inFormat : digits + shift * blockSize < 2047 * blockSize := by
      unfold blockSize at *
      omega
    exact ⟨⟨digits + shift * blockSize, inFormat⟩, value_of_rank rfl few full⟩
  induction shift generalizing digits with
  | zero => exact kept few inRange (Or.inl rfl)
  | succ shift inductionHypothesis =>
    by_cases full : blockSize ≤ digits
    · exact kept few inRange (Or.inr full)
    · -- The leading bit is free, so the digits can be doubled for the exponent below.
      have doubled : 2 * digits ≤ 2 * blockSize := by omega
      obtain ⟨x, value⟩ := inductionHypothesis doubled (by omega)
      refine ⟨x, value.trans ?_⟩
      have scale : ((shift + 1 : Nat) : Int) - 1074 = (shift : Int) - 1074 + 1 := by omega
      rw [scale, zpow_add_one₀ (by norm_num)]
      push_cast
      ring

@[simp] theorem significand_lt (x : Magnitude) : x.significand < 2 ^ 53 := by
  unfold significand blockSize
  split <;> omega

theorem value_lt_of_exponent_neg {x : Magnitude} (fractional : x.exponent < 0) :
    x.value < (2 : Rat) ^ 53 := by
  have digits : (x.significand : Rat) < (2 : Rat) ^ 53 := by exact_mod_cast x.significand_lt
  have unit : (2 : Rat) ^ x.exponent ≤ 1 := zpow_le_one_of_nonpos₀ (by norm_num) fractional.le
  calc x.value
    _ ≤ (x.significand : Rat) * 1 := mul_le_mul_of_nonneg_left unit (Nat.cast_nonneg _)
    _ < (2 : Rat) ^ 53 := by rwa [mul_one]

theorem exists_nat_of_le {x : Magnitude} (large : (2 : Rat) ^ 53 ≤ x.value) :
    ∃ n : Nat, x.value = n := by
  have whole : 0 ≤ x.exponent := by
    by_contra fractional
    exact absurd large (not_le.2 (value_lt_of_exponent_neg (not_le.1 fractional)))
  obtain ⟨shift, exponent⟩ := Int.eq_ofNat_of_zero_le whole
  refine ⟨x.significand * 2 ^ shift, ?_⟩
  rw [value, exponent]
  push_cast
  rfl

end Magnitude

namespace Binary64

@[simp] theorem abs_signedValue (negative : Bool) (x : Magnitude) :
    |signedValue negative x| = x.value := by
  cases negative with
  | true => simp [signedValue, abs_of_nonneg x.value_nonneg]
  | false => simp [signedValue, abs_of_nonneg x.value_nonneg]

@[simp] theorem signedValue_not (negative : Bool) (x : Magnitude) :
    signedValue (!negative) x = -signedValue negative x := by
  cases negative <;> simp [signedValue]

theorem signedValue_cases {negative : Bool} {m : Magnitude} (nonneg : 0 ≤ signedValue negative m) :
    m = .zero ∧ signedValue negative m = 0 ∨
      negative = false ∧ m ≠ .zero ∧ 0 < signedValue negative m := by
  by_cases zero : m = .zero
  · refine Or.inl ⟨zero, ?_⟩
    simp [zero, signedValue]
  · have positive := Magnitude.value_pos zero
    cases negative with
    | false => exact Or.inr ⟨rfl, zero, positive⟩
    | true =>
      simp only [signedValue, if_true] at nonneg
      linarith

/-- At most 53 binary digits behind a power of two that is not too far out make up a number. -/
theorem exists_value?_of_digits {digits : Int} {exponent : Int} (few : digits.natAbs ≤ 2 ^ 53)
    (fromBelow : -1074 ≤ exponent) (fromAbove : exponent ≤ 970) :
    ∃ x : Binary64, x.value? = some ((digits : Rat) * (2 : Rat) ^ exponent) := by
  obtain ⟨shift, place⟩ : ∃ shift : Nat, exponent = (shift : Int) - 1074 :=
    ⟨(exponent + 1074).toNat, by omega⟩
  obtain ⟨x, value⟩ : ∃ x : Magnitude,
      x.value = (digits.natAbs : Rat) * (2 : Rat) ^ exponent := by
    rw [place]
    exact Magnitude.exists_value_eq few (by omega)
  refine ⟨.finite (decide (digits < 0)) x, ?_⟩
  rw [value?_finite, signedValue, value]
  by_cases negative : digits < 0
  · have unsigned : (digits.natAbs : Rat) = -(digits : Rat) := by
      rw [← Int.cast_natCast, Int.ofNat_natAbs_of_nonpos negative.le, Int.cast_neg]
    simp [negative, unsigned]
  · have unsigned : (digits.natAbs : Rat) = digits := by
      rw [← Int.cast_natCast, Int.natAbs_of_nonneg (not_lt.1 negative)]
    simp [negative, unsigned]

theorem value?_ofRat_of_digits (zeroNegative : Bool) (digits exponent : Int)
    (few : digits.natAbs ≤ 2 ^ 53) (fromBelow : -1074 ≤ exponent) (fromAbove : exponent ≤ 970) :
    (ofRat zeroNegative ((digits : Rat) * (2 : Rat) ^ exponent)).value? =
      some ((digits : Rat) * (2 : Rat) ^ exponent) := by
  obtain ⟨x, value⟩ := exists_value?_of_digits few fromBelow fromAbove
  exact value?_ofRat zeroNegative value

@[simp] theorem value?_ofNat {n : Nat} (few : n ≤ 2 ^ 53) : (ofNat n).value? = some (n : Rat) := by
  simpa [ofNat] using value?_ofRat_of_digits false n 0 few (by decide) (by decide)

theorem value?_one : (ofNat 1).value? = some 1 := by
  simp

section FiniteOperands

variable {a b c : Binary64} {x y z : Rat}

@[simp] theorem value?_neg (value : a.value? = some x) : a.neg.value? = some (-x) := by
  obtain ⟨negative, magnitude, rfl, rfl⟩ := eq_finite_of_value? value
  simp [neg]

theorem floor_eq_ofRat (value : a.value? = some x) : ∃ s, a.floor = ofRat s x.floor := by
  obtain ⟨negative, magnitude, rfl, rfl⟩ := eq_finite_of_value? value
  exact ⟨negative, rfl⟩

theorem clampToNat_of_value? (limit : Nat) (value : a.value? = some x) :
    a.clampToNat limit = Min.min limit x.floor.toNat := by
  obtain ⟨negative, magnitude, rfl, rfl⟩ := eq_finite_of_value? value
  cases negative with
  | false => rfl
  | true =>
    have nonpos : (-magnitude.value).floor ≤ 0 := by
      refine (Int.floor_mono (neg_nonpos.2 magnitude.value_nonneg)).trans_eq ?_
      exact Int.floor_zero
    simp only [clampToNat, signedValue, if_true]
    omega

variable (left : a.value? = some x) (right : b.value? = some y)

include left right

theorem add_eq_ofRat : ∃ s, a.add b = ofRat s (x + y) := by
  obtain ⟨s, m, rfl, rfl⟩ := eq_finite_of_value? left
  obtain ⟨t, n, rfl, rfl⟩ := eq_finite_of_value? right
  exact ⟨s && t, rfl⟩

theorem sub_eq_ofRat : ∃ s, a.sub b = ofRat s (x - y) := by
  rw [sub_eq_add_neg]
  exact add_eq_ofRat left (value?_neg right)

theorem mul_eq_ofRat : ∃ s, a.mul b = ofRat s (x * y) := by
  obtain ⟨s, m, rfl, rfl⟩ := eq_finite_of_value? left
  obtain ⟨t, n, rfl, rfl⟩ := eq_finite_of_value? right
  exact ⟨s != t, rfl⟩

theorem div_eq_ofRat (nonzero : y ≠ 0) : ∃ s, a.div b = ofRat s (x / y) := by
  obtain ⟨s, m, rfl, rfl⟩ := eq_finite_of_value? left
  obtain ⟨t, n, rfl, rfl⟩ := eq_finite_of_value? right
  have divisor : n ≠ .zero := by
    rintro rfl
    simp [signedValue] at nonzero
  exact ⟨s != t, if_neg divisor⟩

theorem fma_eq_ofRat (third : c.value? = some z) : ∃ s, a.fma b c = ofRat s (x * y + z) := by
  obtain ⟨s, m, rfl, rfl⟩ := eq_finite_of_value? left
  obtain ⟨t, n, rfl, rfl⟩ := eq_finite_of_value? right
  obtain ⟨u, k, rfl, rfl⟩ := eq_finite_of_value? third
  exact ⟨(s != t) && u, rfl⟩

end FiniteOperands

section PowersOfTwo

theorem value?_ofRat_two_zpow {exponent : Int} (fromBelow : -1074 ≤ exponent)
    (fromAbove : exponent ≤ 970) :
    (ofRat false ((2 : Rat) ^ exponent)).value? = some ((2 : Rat) ^ exponent) := by
  simpa using value?_ofRat_of_digits false 1 exponent (by decide) fromBelow fromAbove

@[simp] theorem value?_ofRat_two_pow {power : Nat} (inRange : power ≤ 970) :
    (ofRat false (2 ^ power)).value? = some (2 ^ power) := by
  have kept := value?_ofRat_two_zpow (show -1074 ≤ (power : Int) by omega) (by omega)
  simpa only [zpow_natCast] using kept

theorem exists_value?_of_abs_le (negative : Bool) {q : Rat} {power : Nat} (inRange : power ≤ 970)
    (le : |q| ≤ 2 ^ power) : ∃ v, (ofRat negative q).value? = some v ∧ |v| ≤ 2 ^ power := by
  have top := value?_ofRat_two_pow inRange
  have bottom := value?_neg top
  obtain ⟨above, below⟩ := abs_le.1 le
  obtain ⟨v, value, least, greatest⟩ := exists_value?_of_between bottom top
    (le_ofRat negative bottom above) (ofRat_le negative top below)
  exact ⟨v, value, abs_le.2 ⟨least, greatest⟩⟩

theorem le_abs_of_value?_ofRat {negative : Bool} {q v : Rat} {power : Nat} (inRange : power ≤ 970)
    (ge : 2 ^ power ≤ |q|) (rounded : (ofRat negative q).value? = some v) :
    2 ^ power ≤ |v| := by
  have top := value?_ofRat_two_pow inRange
  have bottom := value?_neg top
  rcases le_abs.1 ge with above | below
  · exact le_abs.2 (Or.inl ((le_iff_of_value? top rounded).1 (le_ofRat negative top above)))
  · have low : q ≤ -2 ^ power := le_neg_of_le_neg below
    have := (le_iff_of_value? rounded bottom).1 (ofRat_le negative bottom low)
    exact le_abs.2 (Or.inr (le_neg_of_le_neg this))

/-- Rounding keeps whole numbers whole: those that are not kept have no others near them. -/
theorem exists_int_of_ofRat {negative : Bool} {i : Int} {q : Rat}
    (rounded : (ofRat negative i).value? = some q) : ∃ j : Int, q = j := by
  by_cases few : i.natAbs ≤ 2 ^ 53
  · have kept := value?_ofRat_of_digits negative i 0 few (by decide) (by decide)
    rw [zpow_zero, mul_one, rounded, Option.some.injEq] at kept
    exact ⟨i, kept⟩
  · have far : (2 : Rat) ^ 53 ≤ |(i : Rat)| := by
      have large : (2 : Int) ^ 53 ≤ |i| := by
        rw [Int.abs_eq_natAbs]
        omega
      exact_mod_cast large
    have farRounded := le_abs_of_value?_ofRat (by decide) far rounded
    obtain ⟨s, m, -, rfl⟩ := eq_finite_of_value? rounded
    rw [abs_signedValue] at farRounded
    obtain ⟨n, whole⟩ := Magnitude.exists_nat_of_le farRounded
    rw [signedValue, whole]
    cases s with
    | true => exact ⟨-n, by simp⟩
    | false => exact ⟨n, by simp⟩

end PowersOfTwo

section Held

variable {x lower upper : Binary64}

theorem numericKey?_max {i j : Int} (key : x.numericKey? = some i)
    (keyLower : lower.numericKey? = some j) :
    (x.max lower).numericKey? = some (if i < j then j else i) := by
  have number := isNaN_eq_false_iff.2 ⟨i, key⟩
  have numberLower := isNaN_eq_false_iff.2 ⟨j, keyLower⟩
  simp only [max, lt, key, keyLower, number, numberLower, Bool.false_eq_true, if_false,
    decide_eq_true_eq]
  split
  next => exact keyLower
  next => exact key

theorem numericKey?_min {i k : Int} (key : x.numericKey? = some i)
    (keyUpper : upper.numericKey? = some k) :
    (x.min upper).numericKey? = some (if k < i then k else i) := by
  have number := isNaN_eq_false_iff.2 ⟨i, key⟩
  have numberUpper := isNaN_eq_false_iff.2 ⟨k, keyUpper⟩
  simp only [min, lt, key, keyUpper, number, numberUpper, Bool.false_eq_true, if_false,
    decide_eq_true_eq]
  split
  next => exact keyUpper
  next => exact key

theorem min_cases (left : x.isNaN = false) (right : upper.isNaN = false) :
    (x.min upper = x ∨ x.min upper = upper) ∧ (x.min upper).le x = true ∧
      (x.min upper).le upper = true := by
  obtain ⟨i, key⟩ := isNaN_eq_false_iff.1 left
  obtain ⟨k, keyUpper⟩ := isNaN_eq_false_iff.1 right
  have held := numericKey?_min key keyUpper
  refine ⟨?_, le_iff.2 ⟨_, i, held, key, by split <;> omega⟩,
    le_iff.2 ⟨_, k, held, keyUpper, by split <;> omega⟩⟩
  rw [min, left, right]
  exact (ite_eq_or_eq _ upper x).symm

theorem max_cases (left : x.isNaN = false) (right : lower.isNaN = false) :
    (x.max lower = x ∨ x.max lower = lower) ∧ x.le (x.max lower) = true ∧
      lower.le (x.max lower) = true := by
  obtain ⟨i, key⟩ := isNaN_eq_false_iff.1 left
  obtain ⟨j, keyLower⟩ := isNaN_eq_false_iff.1 right
  have held := numericKey?_max key keyLower
  refine ⟨?_, le_iff.2 ⟨i, _, key, held, by split <;> omega⟩,
    le_iff.2 ⟨j, _, keyLower, held, by split <;> omega⟩⟩
  rw [max, left, right]
  exact (ite_eq_or_eq _ lower x).symm

@[simp] theorem max_of_isNaN (isNaN : x.isNaN = true) : x.max lower = lower := by
  rw [max, if_pos isNaN]

theorem max_min_of_isNaN (isNaN : x.isNaN = true) (ordered : lower.le upper = true) :
    (x.max lower).min upper = lower := by
  have above := (lt_iff_not_le (isNaN_right ordered) (isNaN_left ordered)).not_left.2 ordered
  rw [max_of_isNaN isNaN, min, isNaN_left ordered, isNaN_right ordered]
  simp [above]

theorem max_min_between (x : Binary64) (ordered : lower.le upper = true) :
    lower.le ((x.max lower).min upper) = true ∧ ((x.max lower).min upper).le upper = true := by
  cases number : x.isNaN with
  | true =>
    rw [max_min_of_isNaN number ordered]
    exact ⟨le_refl (isNaN_left ordered), ordered⟩
  | false =>
    obtain ⟨i, key⟩ := isNaN_eq_false_iff.1 number
    obtain ⟨j, k, keyLower, keyUpper, le⟩ := le_iff.1 ordered
    have held := numericKey?_min (numericKey?_max key keyLower) keyUpper
    refine ⟨le_iff.2 ⟨_, _, keyLower, held, ?_⟩, le_iff.2 ⟨_, _, held, keyUpper, ?_⟩⟩
    · split <;> split <;> omega
    · split <;> omega

end Held

end Binary64

theorem Magnitude.lt_two_pow_of_nearest? {n power : Nat} {x : Magnitude} (inRange : power ≤ 970)
    (nearest : nearest? n = some x) (small : x.value < 2 ^ power) : n < 2 ^ power := by
  by_contra large
  have far : (2 : Rat) ^ power ≤ |(n : Rat)| := by
    rw [abs_of_nonneg (Nat.cast_nonneg n)]
    exact_mod_cast not_lt.1 large
  have rounded := Binary64.ofRat_of_nearest? false (Nat.cast_nonneg n) nearest
  have value : (Binary64.ofRat false n).value? = some x.value := congrArg Binary64.value? rounded
  have farRounded := Binary64.le_abs_of_value?_ofRat inRange far value
  rw [abs_of_nonneg x.value_nonneg] at farRounded
  exact absurd small (not_lt.2 farRounded)

end BenchStats
