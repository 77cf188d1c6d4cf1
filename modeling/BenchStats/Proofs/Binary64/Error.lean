import BenchStats.Proofs.Binary64.Arithmetic
import Mathlib.Data.Nat.Sqrt
import Mathlib.Tactic.Positivity

/-!
# The error of one rounding

A value that is rounded to a number moves by at most half a unit of its last kept bit.  That is a
share of the value itself, or, among the least numbers, half of the least magnitude.  The square
root is rounded from a value whose square is just as near.
-/

namespace BenchStats

theorem abs_roundHalfEven_sub_le (q : Rat) : |(roundHalfEven q : Rat) - q| ≤ 1 / 2 := by
  have below : (q.floor : Rat) ≤ q := Int.floor_le q
  have above : q < (q.floor : Rat) + 1 := Int.lt_floor_add_one q
  rw [abs_le]
  unfold roundHalfEven
  dsimp only
  split
  next low => constructor <;> linarith
  next notLow =>
    split
    next high =>
      push_cast
      constructor <;> linarith
    next notHigh =>
      -- In the middle both neighbours are equally near, whichever of them is even.
      have middle : q - q.floor = 1 / 2 := le_antisymm (not_lt.1 notHigh) (not_lt.1 notLow)
      rcases Int.emod_two_eq q.floor with even | odd
      · rw [even]
        push_cast
        constructor <;> linarith
      · rw [odd]
        push_cast
        constructor <;> linarith

/-- The greatest share of a value that one rounding adds or takes away. -/
@[irreducible]
def unitRoundoff : Rat := (2 : Rat) ^ (-53 : Int)

/-- Half of the least magnitude, which rounding adds or takes away among the least numbers. -/
@[irreducible]
def underflowUnit : Rat := (2 : Rat) ^ (-1075 : Int)

@[simp] theorem unitRoundoff_pos : 0 < unitRoundoff := by
  rw [unitRoundoff]
  exact two_zpow_pos _

@[simp] theorem underflowUnit_pos : 0 < underflowUnit := by
  rw [underflowUnit]
  exact two_zpow_pos _

@[simp] theorem unitRoundoff_lt_one : unitRoundoff < 1 := by
  norm_num [unitRoundoff]

namespace Magnitude

/-- What a positive value is rounded to: a whole number of units of its last kept bit. -/
theorem value_of_nearest? {q : Rat} {x : Magnitude} (positive : 0 < q)
    (nearest : nearest? q = some x) :
    x.value = (roundHalfEven (q / (2 : Rat) ^ keptExponent q) : Rat) *
      (2 : Rat) ^ keptExponent q := by
  have rank := rank_of_nearest? nearest
  have most := nearestRank_le_of_pos positive
  have least : -1074 ≤ keptExponent q := le_max_left _ _
  have nonneg : 0 ≤ roundHalfEven (q / (2 : Rat) ^ keptExponent q) := by
    apply le_roundHalfEven_of_le
    exact_mod_cast (div_pos positive (two_zpow_pos _)).le
  have ranked : nearestRank q = (roundHalfEven (q / (2 : Rat) ^ keptExponent q)).toNat +
      (keptExponent q + 1074).toNat * blockSize := by
    rw [nearestRank, if_neg positive.ne']
  have kept : (keptExponent q + 1074).toNat = 0 ∨
      blockSize ≤ (roundHalfEven (q / (2 : Rat) ^ keptExponent q)).toNat := by
    rcases least.eq_or_lt with first | normal
    · exact Or.inl (by omega)
    · have full := le_nearestRank_of_kept positive normal
      exact Or.inr (by omega)
  have scale : ((keptExponent q + 1074).toNat : Int) - 1074 = keptExponent q := by omega
  have value := value_of_rank (rank.trans ranked) (by omega) kept
  rw [scale] at value
  rw [value, ← Int.cast_natCast, Int.toNat_of_nonneg nonneg]

/-- Half a unit of the last kept bit is a share of the value or half of the least magnitude. -/
theorem half_unit_le {q : Rat} (positive : 0 < q) :
    (2 : Rat) ^ keptExponent q / 2 ≤ q * unitRoundoff + underflowUnit := by
  have halved (e : Int) : (2 : Rat) ^ e / 2 = (2 : Rat) ^ (e - 1) := by
    rw [zpow_sub_one₀ (by norm_num), div_eq_mul_inv]
  have share : 0 < q * unitRoundoff := mul_pos positive unitRoundoff_pos
  have unit := underflowUnit_pos
  rw [halved]
  rcases max_choice (-1074) (binaryOrder q - 52) with first | normal
  · rw [keptExponent, first, underflowUnit]
    exact le_add_of_nonneg_left share.le
  · have order : (2 : Rat) ^ binaryOrder q ≤ q := by
      rw [binaryOrder_eq_log positive]
      exact Int.zpow_log_le_self (by decide) positive
    have split : binaryOrder q - 52 - 1 = binaryOrder q + -53 := by omega
    have scaled := mul_le_mul_of_nonneg_right order unitRoundoff_pos.le
    rw [keptExponent, normal, split, zpow_add₀ (by norm_num), ← unitRoundoff]
    exact scaled.trans (le_add_of_nonneg_right unit.le)

theorem abs_value_sub_le {q : Rat} {x : Magnitude} (positive : 0 < q)
    (nearest : nearest? q = some x) :
    |x.value - q| ≤ q * unitRoundoff + underflowUnit := by
  have unit := two_zpow_pos (keptExponent q)
  have near := abs_roundHalfEven_sub_le (q / (2 : Rat) ^ keptExponent q)
  refine le_trans ?_ (half_unit_le positive)
  calc |x.value - q|
    _ = |(roundHalfEven (q / (2 : Rat) ^ keptExponent q) : Rat) -
          q / (2 : Rat) ^ keptExponent q| * (2 : Rat) ^ keptExponent q := by
      rw [value_of_nearest? positive nearest, ← abs_of_pos unit, ← abs_mul, abs_of_pos unit,
        sub_mul, div_mul_cancel₀ _ unit.ne']
    _ ≤ 1 / 2 * (2 : Rat) ^ keptExponent q := mul_le_mul_of_nonneg_right near unit.le
    _ = (2 : Rat) ^ keptExponent q / 2 := by ring

end Magnitude

namespace Binary64

/-- One rounding to a finite number. -/
theorem abs_value?_ofRat_sub_le {s : Bool} {q v : Rat} (rounded : (ofRat s q).value? = some v) :
    |v - q| ≤ |q| * unitRoundoff + underflowUnit := by
  by_cases exactZero : q = 0
  · subst exactZero
    rw [value?_ofRat s value?_zero, Option.some.injEq] at rounded
    simpa [← rounded] using underflowUnit_pos.le
  have size : (if q < 0 then -q else q) = |q| := by
    split
    next negative => exact (abs_of_neg negative).symm
    next nonneg => exact (abs_of_nonneg (not_lt.1 nonneg)).symm
  have positive : 0 < |q| := abs_pos.2 exactZero
  rw [ofRat, if_neg exactZero, size] at rounded
  dsimp only at rounded
  split at rounded
  next x nearest =>
    have error := Magnitude.abs_value_sub_le positive nearest
    rw [value?_finite, Option.some.injEq] at rounded
    by_cases negative : q < 0
    · rw [← rounded]
      simp only [signedValue, negative, decide_true, if_true]
      rw [← abs_neg, neg_sub, sub_neg_eq_add, add_comm, ← sub_neg_eq_add]
      rwa [abs_of_neg negative] at error ⊢
    · rw [← rounded]
      simp only [signedValue, negative, decide_false, Bool.false_eq_true, if_false]
      rwa [abs_of_nonneg (not_lt.1 negative)] at error ⊢
  next => cases rounded

theorem nonneg_of_value?_ofRat {s : Bool} {q v : Rat} (nonneg : 0 ≤ q)
    (rounded : (ofRat s q).value? = some v) : 0 ≤ v :=
  (le_iff_of_value? value?_zero rounded).1 (le_ofRat s value?_zero nonneg)

/-- What one rounding makes of a value. -/
structure Rounded (q v : Rat) : Prop where
  error : |v - q| ≤ |q| * unitRoundoff + underflowUnit
  nonneg : 0 ≤ q → 0 ≤ v

theorem rounded_of_ofRat {s : Bool} {q v : Rat} (value : (ofRat s q).value? = some v) :
    Rounded q v :=
  ⟨abs_value?_ofRat_sub_le value, fun nonneg => nonneg_of_value?_ofRat nonneg value⟩

theorem Rounded.size_le {q v : Rat} (rounded : Rounded q v) :
    |v| ≤ |q| * (1 + unitRoundoff) + underflowUnit := by
  have apart := abs_sub_abs_le_abs_sub v q
  have error := rounded.error
  linarith

theorem Rounded.le_value {q v : Rat} (rounded : Rounded q v) (nonneg : 0 ≤ q) :
    q * (1 - unitRoundoff) ≤ v + underflowUnit := by
  have error := (abs_le.1 rounded.error).1
  rw [abs_of_nonneg nonneg] at error
  linarith

theorem Rounded.error_of_near {q v exact error size : Rat} (rounded : Rounded q v)
    (near : |q - exact| ≤ error) (small : |exact| ≤ size) :
    |v - exact| ≤ error * (1 + unitRoundoff) + size * unitRoundoff + underflowUnit := by
  have apart := abs_sub_abs_le_abs_sub q exact
  have last := rounded.error
  have unit := unitRoundoff_pos
  calc |v - exact|
    _ ≤ |v - q| + |q - exact| := abs_sub_le _ _ _
    _ ≤ |q - exact| * (1 + unitRoundoff) + |exact| * unitRoundoff + underflowUnit := by nlinarith
    _ ≤ error * (1 + unitRoundoff) + size * unitRoundoff + underflowUnit := by gcongr

section SquareRoot

theorem value_eq_evenScale (m : Magnitude) :
    m.value = ((evenScale m).1 : Rat) * ((2 : Rat) ^ (evenScale m).2) ^ 2 := by
  have even : (((m.exponent - 2 * ((m.exponent - 110) / 2)).toNat : Nat) : Int) +
      ((m.exponent - 110) / 2) * (2 : Nat) = m.exponent := by omega
  rw [evenScale, Nat.shiftLeft_eq]
  push_cast
  rw [← zpow_natCast, ← zpow_natCast, ← zpow_mul, mul_assoc, ← zpow_add₀ (by norm_num), even,
    Magnitude.value]

theorem le_evenScale {m : Magnitude} (nonzero : m ≠ .zero) : (2 ^ 55) ^ 2 ≤ (evenScale m).1 := by
  have significant : 0 < m.significand := by
    apply Nat.pos_of_ne_zero
    intro none
    have positive := Magnitude.value_pos nonzero
    rw [Magnitude.value, none, Nat.cast_zero, zero_mul] at positive
    exact absurd positive (lt_irrefl 0)
  have shift : 110 ≤ (m.exponent - 2 * ((m.exponent - 110) / 2)).toNat := by omega
  rw [evenScale, Nat.shiftLeft_eq]
  calc (2 ^ 55) ^ 2
    _ = 1 * 2 ^ 110 := by norm_num
    _ ≤ m.significand * 2 ^ (m.exponent - 2 * ((m.exponent - 110) / 2)).toNat :=
      Nat.mul_le_mul significant (Nat.pow_le_pow_right (by decide) shift)

/-- The odd number beside the root of a large number that is not a square has nearly its square. -/
theorem sq_root_add_half {n : Nat} (large : (2 ^ 55) ^ 2 ≤ n) :
    (n : Rat) * (1 - unitRoundoff) ≤ ((n.sqrt : Rat) + 1 / 2) ^ 2 ∧
      ((n.sqrt : Rat) + 1 / 2) ^ 2 ≤ 4 * n := by
  have below : (n.sqrt : Rat) ^ 2 ≤ n := by exact_mod_cast n.sqrt_le'
  have above : (n : Rat) ≤ (n.sqrt : Rat) ^ 2 + 2 * n.sqrt := by
    have next : n < (n.sqrt + 1) ^ 2 := n.lt_succ_sqrt'
    have : n ≤ n.sqrt ^ 2 + 2 * n.sqrt := by nlinarith
    exact_mod_cast this
  have root : (2 : Rat) ^ 55 ≤ n.sqrt := by exact_mod_cast Nat.le_sqrt'.2 large
  have share : (n.sqrt : Rat) ≤ n * unitRoundoff := by
    calc (n.sqrt : Rat)
      _ ≤ (n.sqrt : Rat) * ((2 : Rat) ^ 55 * unitRoundoff) := by
        apply le_mul_of_one_le_right (Nat.cast_nonneg _)
        norm_num [unitRoundoff]
      _ ≤ (n.sqrt : Rat) * (n.sqrt * unitRoundoff) := by
        apply mul_le_mul_of_nonneg_left _ (Nat.cast_nonneg _)
        exact mul_le_mul_of_nonneg_right root unitRoundoff_pos.le
      _ = (n.sqrt : Rat) ^ 2 * unitRoundoff := by ring
      _ ≤ n * unitRoundoff := mul_le_mul_of_nonneg_right below unitRoundoff_pos.le
  constructor
  · nlinarith
  · nlinarith

/-- What the square root is rounded from. -/
theorem sqrt_eq_ofRat {m : Magnitude} (nonzero : m ≠ .zero) :
    ∃ r : Rat, sqrt (.finite false m) = ofRat false r ∧ 0 ≤ r ∧
      m.value * (1 - unitRoundoff) ≤ r ^ 2 ∧ r ^ 2 ≤ 4 * m.value := by
  have scaled := value_eq_evenScale m
  have large := le_evenScale nonzero
  simp only [sqrt, if_neg nonzero, Bool.false_eq_true, if_false]
  generalize (evenScale m).1 = n at scaled large ⊢
  generalize (evenScale m).2 = half at scaled ⊢
  have unit := two_zpow_pos half
  split
  next square =>
    have exact : ((n.sqrt : Rat) * (2 : Rat) ^ half) ^ 2 = m.value := by
      have cast : (n.sqrt : Rat) * n.sqrt = n := by exact_mod_cast square
      rw [scaled, ← cast]
      ring
    have positive := Magnitude.value_pos nonzero
    refine ⟨_, rfl, by positivity, ?_, ?_⟩
    · rw [exact]
      nlinarith [unitRoundoff_pos]
    · rw [exact]
      linarith
  next =>
    have odd : ((2 * n.sqrt + 1 : Nat) : Rat) * (2 : Rat) ^ (half - 1) =
        ((n.sqrt : Rat) + 1 / 2) * (2 : Rat) ^ half := by
      rw [zpow_sub_one₀ (by norm_num)]
      push_cast
      ring
    obtain ⟨least, most⟩ := sq_root_add_half large
    refine ⟨_, rfl, (mul_two_zpow_pos (Nat.succ_pos _) _).le, ?_, ?_⟩
    · rw [odd, mul_pow, scaled, mul_right_comm]
      exact mul_le_mul_of_nonneg_right least (by positivity)
    · rw [odd, mul_pow, scaled, ← mul_assoc]
      exact mul_le_mul_of_nonneg_right most (by positivity)

@[simp] theorem value?_sqrt_of_zero {x : Binary64} (zero : x.value? = some 0) :
    x.sqrt.value? = some 0 := by
  obtain ⟨s, m, rfl, value⟩ := eq_finite_of_value? zero
  have root : m = .zero := by
    by_contra nonzero
    have positive := Magnitude.value_pos nonzero
    rw [← abs_signedValue s m, value, abs_zero] at positive
    exact lt_irrefl 0 positive
  rw [root, sqrt, if_pos rfl]
  exact value?_signedZero s

theorem nonneg_of_value?_sqrt {x : Binary64} {v : Rat} (value : x.sqrt.value? = some v) :
    0 ≤ v := by
  cases x with
  | nan => cases value
  | infinite negative => cases negative <;> cases value
  | finite negative m =>
    by_cases root : m = .zero
    · subst root
      rw [sqrt, if_pos rfl, value?_signedZero] at value
      exact (Option.some.inj value).le
    · cases negative with
      | false =>
        obtain ⟨r, rounded, nonneg, -⟩ := sqrt_eq_ofRat root
        rw [rounded] at value
        exact nonneg_of_value?_ofRat nonneg value
      | true =>
        rw [sqrt, if_neg root] at value
        cases value

/-- The root of a number that is not among the least is finite, and its square is hardly less. -/
theorem exists_value?_sqrt {x : Binary64} {q : Rat} (value : x.value? = some q)
    (large : (2 : Rat) ^ (-1022 : Int) ≤ q) :
    ∃ d, x.sqrt.value? = some d ∧ 0 < d ∧ d ≤ 2 ^ 514 ∧
      q * (1 - 5 * unitRoundoff) ≤ d ^ 2 := by
  have positive : 0 < q := (two_zpow_pos _).trans_le large
  obtain ⟨s, m, rfl, rfl⟩ := eq_finite_of_value? value
  obtain ⟨rfl, nonzero, -⟩ : s = false ∧ m ≠ .zero ∧ 0 < signedValue s m := by
    rcases signedValue_cases positive.le with ⟨-, zero⟩ | found
    · exact absurd zero positive.ne'
    · exact found
  have size : signedValue false m = m.value := rfl
  rw [size] at large positive ⊢
  obtain ⟨r, root, nonneg, least, most⟩ := sqrt_eq_ofRat nonzero
  rw [root]
  have small : |r| ≤ 2 ^ 514 := by
    have bounded := Magnitude.lt_of_nearest? (Magnitude.nearest?_value m)
    apply abs_le_of_sq_le_sq _ (pow_pos two_pos 514).le
    calc r ^ 2
      _ ≤ 4 * m.value := most
      _ ≤ 4 * (2 : Rat) ^ (1025 : Int) := mul_le_mul_of_nonneg_left bounded.le (by decide)
      _ ≤ (2 ^ 514) ^ 2 := by decide +kernel
  obtain ⟨d, rounded, bounded⟩ := exists_value?_of_abs_le false (by decide) small
  have far : (2 : Rat) ^ (-512 : Int) ≤ r := by
    apply le_of_sq_le_sq _ nonneg
    calc ((2 : Rat) ^ (-512 : Int)) ^ 2
      _ ≤ (2 : Rat) ^ (-1022 : Int) * (1 - unitRoundoff) := by decide +kernel
      _ ≤ m.value * (1 - unitRoundoff) :=
        mul_le_mul_of_nonneg_right large (sub_pos.2 unitRoundoff_lt_one).le
      _ ≤ r ^ 2 := least
  have underflow : underflowUnit ≤ r * unitRoundoff := by
    calc underflowUnit
      _ ≤ (2 : Rat) ^ (-512 : Int) * unitRoundoff := by decide +kernel
      _ ≤ r * unitRoundoff := mul_le_mul_of_nonneg_right far unitRoundoff_pos.le
  have low := (rounded_of_ofRat rounded).le_value nonneg
  have near : r * (1 - 2 * unitRoundoff) ≤ d := by linarith
  have rest : 0 < 1 - 2 * unitRoundoff := by norm_num [unitRoundoff]
  have positiveRoot : 0 < r := (two_zpow_pos _).trans_le far
  refine ⟨d, rounded, (mul_pos positiveRoot rest).trans_le near, le_of_abs_le bounded, ?_⟩
  calc m.value * (1 - 5 * unitRoundoff)
    _ ≤ m.value * ((1 - unitRoundoff) * (1 - 2 * unitRoundoff) ^ 2) := by
      apply mul_le_mul_of_nonneg_left _ positive.le
      norm_num [unitRoundoff]
    _ = m.value * (1 - unitRoundoff) * (1 - 2 * unitRoundoff) ^ 2 := by ring
    _ ≤ r ^ 2 * (1 - 2 * unitRoundoff) ^ 2 := mul_le_mul_of_nonneg_right least (sq_nonneg _)
    _ = (r * (1 - 2 * unitRoundoff)) ^ 2 := by ring
    _ ≤ d ^ 2 := pow_le_pow_left₀ (mul_pos positiveRoot rest).le near 2

end SquareRoot

end Binary64

end BenchStats
