import BenchStats.Decimal.Layout
import BenchStats.Proofs.Binary64.Representable
import Mathlib.Tactic.Ring

/-!
# Shortest decimals read back

The search accepts a decimal only if it rounds to the magnitude, and the decimal with the exact
value rounds to it in any case.  So the shortest decimal reads back, whichever tie rule is used.
-/

namespace BenchStats

@[simp] theorem Magnitude.value_exactDecimal (x : Magnitude) : x.exactDecimal.value = x.value := by
  rw [exactDecimal, value]
  split
  next whole =>
    obtain ⟨shift, exponent⟩ := Int.eq_ofNat_of_zero_le whole
    simp only [Decimal.value, exponent, Int.toNat_natCast, Nat.shiftLeft_eq, Nat.cast_mul,
      Nat.cast_pow, zpow_zero, mul_one]
    rfl
  next fractional =>
    obtain ⟨places, exponent⟩ : ∃ places : Nat, x.exponent = -(places : Int) :=
      ⟨(-x.exponent).toNat, by omega⟩
    have halves : (10 : Rat) ^ (-(places : Int)) =
        (2 : Rat) ^ (-(places : Int)) * (5 : Rat) ^ (-(places : Int)) := by
      rw [← mul_zpow]
      norm_num
    have cancels : (5 : Rat) ^ places * (5 : Rat) ^ (-(places : Int)) = 1 := by
      rw [← zpow_natCast, ← zpow_add₀ (by norm_num), add_neg_cancel, zpow_zero]
    have digits : (Nat.pow 5 places : Rat) = (5 : Rat) ^ places := by
      exact_mod_cast rfl
    simp only [Decimal.value, exponent, neg_neg, Int.toNat_natCast, Nat.cast_mul, digits, halves]
    calc (x.significand : Rat) * 5 ^ places * (2 ^ (-(places : Int)) * 5 ^ (-(places : Int)))
      _ = (x.significand : Rat) * 2 ^ (-(places : Int)) *
          (5 ^ places * 5 ^ (-(places : Int))) := by ring
      _ = (x.significand : Rat) * 2 ^ (-(places : Int)) := by rw [cancels, mul_one]

namespace Decimal

@[simp] theorem value_nonneg (d : Decimal) : 0 ≤ d.value :=
  mul_nonneg (Nat.cast_nonneg _) (zpow_pos (by norm_num) _).le

theorem value_pos {d : Decimal} (nonzero : d.digits ≠ 0) : 0 < d.value :=
  mul_pos (by exact_mod_cast Nat.pos_of_ne_zero nonzero) (zpow_pos (by norm_num) _)

theorem nearerNeighbour_cases (tie : Tie) (q : Rat) (lower : Decimal) :
    nearerNeighbour tie q lower = lower ∨
      nearerNeighbour tie q lower = ⟨lower.digits + 1, lower.exponent⟩ := by
  unfold nearerNeighbour
  dsimp only
  split
  next => exact Or.inl rfl
  next =>
    split
    next => exact Or.inr rfl
    next =>
      cases tie with
      | upward => exact Or.inr rfl
      | evenDigit => exact ite_eq_or_eq _ _ _

theorem readsBackAs_of_withDigits? {tie : Tie} {x : Magnitude} {count : Nat} {d : Decimal}
    (found : withDigits? tie x count = some d) : readsBackAs x d = true := by
  unfold withDigits? at found
  dsimp only at found
  split at found
  next lower upper =>
    rw [← Option.some.inj found]
    rcases nearerNeighbour_cases tie x.value
        ⟨(x.value / (10 : Rat) ^ (decimalOrder x.value - (count - 1 : Nat))).floor.toNat,
          decimalOrder x.value - (count - 1 : Nat)⟩ with taken | taken
    · rwa [taken]
    · rwa [taken]
  next lower upper => rwa [← Option.some.inj found]
  next lower upper => rwa [← Option.some.inj found]
  next => simp at found

/-- The shortest decimal rounds to the magnitude that it was made for. -/
@[simp] theorem nearest?_shortest (tie : Tie) (x : Magnitude) :
    Magnitude.nearest? (shortest tie x).value = some x := by
  rw [shortest]
  split
  next zero =>
    have nothing : value ⟨0, 0⟩ = 0 := by simp [value]
    rw [zero, nothing, ← Magnitude.value_zero, Magnitude.nearest?_value]
  next nonzero =>
    cases search : (List.range' 1 17).findSome? (withDigits? tie x) with
    | none => simp
    | some d =>
      obtain ⟨count, -, found⟩ := List.exists_of_findSome?_eq_some search
      exact of_decide_eq_true (readsBackAs_of_withDigits? found)

@[simp] theorem ofDecimal_shortest (negative : Bool) (tie : Tie) (x : Magnitude) :
    Binary64.ofDecimal negative (shortest tie x) = .finite negative x :=
  Binary64.ofRat_of_nearest? negative (value_nonneg _) (nearest?_shortest tie x)

theorem leadingExponent_eq_log {d : Decimal} (nonzero : d.digits ≠ 0) :
    leadingExponent d = Int.log 10 d.value := by
  have order := toDigits_order (Nat.pos_of_ne_zero nonzero)
  have length : 0 < (Nat.toDigits 10 d.digits).length := Nat.length_toDigits_pos
  have unit : (0 : Rat) < (10 : Rat) ^ d.exponent := zpow_pos (by norm_num) _
  rw [leadingExponent, if_neg nonzero]
  generalize (Nat.toDigits 10 d.digits).length = count at *
  refine (log_eq_of_zpow_le (by decide) (value_pos nonzero) ?_ ?_).symm
  · calc (10 : Rat) ^ (d.exponent + count - 1)
      _ = (10 : Rat) ^ (count - 1) * (10 : Rat) ^ d.exponent := by
        rw [← zpow_natCast, ← zpow_add₀ (by norm_num)]
        congr 1
        omega
      _ ≤ d.value := by
        refine mul_le_mul_of_nonneg_right ?_ unit.le
        exact_mod_cast order.1
  · calc d.value
      _ < (10 : Rat) ^ count * (10 : Rat) ^ d.exponent := by
        refine mul_lt_mul_of_pos_right ?_ unit
        exact_mod_cast order.2
      _ = (10 : Rat) ^ (d.exponent + count - 1 + 1) := by
        rw [← zpow_natCast, ← zpow_add₀ (by norm_num)]
        congr 1
        omega

theorem natAbs_leadingExponent_shortest_lt (tie : Tie) (x : Magnitude) :
    (leadingExponent (shortest tie x)).natAbs < 65536 := by
  have nearest := nearest?_shortest tie x
  by_cases nonzero : (shortest tie x).digits = 0
  · rw [leadingExponent, if_pos nonzero]
    decide
  have positive := value_pos nonzero
  rw [leadingExponent_eq_log nonzero]
  have above : Int.log 10 (shortest tie x).value < 1025 := by
    apply (Int.lt_zpow_iff_log_lt (by decide) positive).1
    apply lt_of_lt_of_le (Magnitude.lt_of_nearest? nearest)
    exact zpow_le_zpow_left₀ (by norm_num) (by norm_num) (by norm_num)
  have below : -1076 ≤ Int.log 10 (shortest tie x).value := by
    apply (Int.zpow_le_iff_le_log (by decide) positive).1
    have magnitudeNonzero : x ≠ .zero := by
      intro zero
      rw [shortest, if_pos zero] at nonzero
      exact nonzero rfl
    refine le_trans ?_ (Magnitude.lt_of_nearest?_ne_zero positive.le nearest magnitudeNonzero).le
    rw [zpow_neg, zpow_neg]
    exact inv_anti₀ (two_zpow_pos _) (zpow_le_zpow_left₀ (by norm_num) (by norm_num) (by norm_num))
  omega

end Decimal

end BenchStats
