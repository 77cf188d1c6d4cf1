import BenchStats.Proofs.Binary64.Arithmetic
import BenchStats.Proofs.Decimal.Text

/-!
# Whole numbers are written without a point

A decimal with as many digits as a whole number has reads back as it, so no shorter one has a
fraction, and the layout of cells writes digits alone.
-/

namespace BenchStats

namespace Decimal

theorem decimalOrder_eq_log {q : Rat} (positive : 0 < q) : decimalOrder q = Int.log 10 q := by
  have numPos : 0 < q.num.natAbs := Int.natAbs_pos.2 (Rat.num_ne_zero.2 positive.ne')
  have num := toDigits_order numPos
  have den := toDigits_order q.den_pos
  have numLength : 0 < (Nat.toDigits 10 q.num.natAbs).length := Nat.length_toDigits_pos
  have denLength : 0 < (Nat.toDigits 10 q.den).length := Nat.length_toDigits_pos
  rw [decimalOrder]
  generalize (Nat.toDigits 10 q.num.natAbs).length = a at *
  generalize (Nat.toDigits 10 q.den).length = c at *
  obtain ⟨a, rfl⟩ := Nat.exists_eq_add_of_lt numLength
  obtain ⟨c, rfl⟩ := Nat.exists_eq_add_of_lt denLength
  simp only [Nat.zero_add, Nat.add_sub_cancel] at num den
  have ten : 1 < 10 := by decide
  have orders := log_eq_of_orders ten positive num.1 num.2 den.1 den.2
  have places : ((0 + a + 1 : Nat) : Int) - (0 + c + 1 : Nat) = (a : Int) - c := by omega
  simp only [places]
  exact_mod_cast orders

theorem decimalOrder_nonneg {x : Magnitude} {n : Nat} (whole : x.value = n)
    (nonzero : x ≠ .zero) : 0 ≤ decimalOrder x.value := by
  have positive := Magnitude.value_pos nonzero
  rw [decimalOrder_eq_log positive, ← Int.zpow_le_iff_le_log (by decide) positive, zpow_zero]
  rw [whole] at positive ⊢
  exact_mod_cast positive

theorem withDigits?_of_whole (tie : Tie) {x : Magnitude} {n : Nat} (whole : x.value = n)
    (nonzero : x ≠ .zero) :
    ∃ d, withDigits? tie x ((decimalOrder x.value).toNat + 1) = some d := by
  have order := decimalOrder_nonneg whole nonzero
  have unit : decimalOrder x.value - ((decimalOrder x.value).toNat + 1 - 1 : Nat) = 0 := by omega
  have lower : readsBackAs x ⟨(x.value / (10 : Rat) ^ (0 : Int)).floor.toNat, 0⟩ = true := by
    have floor : (x.value / (10 : Rat) ^ (0 : Int)).floor = (n : Int) := by
      rw [zpow_zero, div_one, whole, ← Int.cast_natCast, Rat.floor_intCast]
    rw [readsBackAs, floor, decide_eq_true_eq, Int.toNat_natCast, value, zpow_zero, mul_one,
      ← whole, Magnitude.nearest?_value]
  unfold withDigits?
  dsimp only
  rw [unit, lower]
  split
  next => exact ⟨_, rfl⟩
  next => exact ⟨_, rfl⟩
  next exclusive _ => exact absurd exclusive (by simp)
  next exclusive _ => exact absurd exclusive (by simp)

theorem exponent_of_withDigits? {tie : Tie} {x : Magnitude} {count : Nat} {d : Decimal}
    (found : withDigits? tie x count = some d) :
    d.exponent = decimalOrder x.value - (count - 1 : Nat) := by
  unfold withDigits? at found
  dsimp only at found
  split at found
  next =>
    rw [← Option.some.inj found]
    rcases nearerNeighbour_cases tie x.value
        ⟨(x.value / (10 : Rat) ^ (decimalOrder x.value - (count - 1 : Nat))).floor.toNat,
          decimalOrder x.value - (count - 1 : Nat)⟩ with taken | taken
    · rw [taken]
    · rw [taken]
  next => rw [← Option.some.inj found]
  next => rw [← Option.some.inj found]
  next => simp at found

theorem findSome?_range'_le {f : Nat → Option Decimal} {start length : Nat} {d : Decimal}
    (search : (List.range' start length).findSome? f = some d) :
    ∃ count, f count = some d ∧
      ∀ other d', start ≤ other → other < count → f other ≠ some d' := by
  obtain ⟨before, count, after, counts, hit, missed⟩ := List.findSome?_eq_some_iff.1 search
  refine ⟨count, hit, fun other d' least below found => ?_⟩
  have increasing : (List.range' start length).Pairwise (· < ·) := List.pairwise_lt_range'
  have countInside : count ∈ List.range' start length := by
    rw [counts]
    exact List.mem_append_right _ List.mem_cons_self
  have inside : other ∈ List.range' start length := by
    rw [List.mem_range'_1] at countInside ⊢
    omega
  rw [counts] at inside increasing
  rcases List.mem_append.1 inside with earlier | later
  · rw [missed other earlier] at found
    exact absurd found (by simp)
  · have later : other ∈ after := (List.mem_cons.1 later).resolve_left below.ne
    have := List.rel_of_pairwise_cons (List.pairwise_append.1 increasing).2.1 later
    omega

/-- The shortest decimal of a whole number has no digits behind the point. -/
theorem exponent_shortest_nonneg (tie : Tie) {x : Magnitude} {n : Nat} (whole : x.value = n) :
    0 ≤ (shortest tie x).exponent := by
  rw [shortest]
  split
  next => exact le_rfl
  next nonzero =>
    have order := decimalOrder_nonneg whole nonzero
    obtain ⟨own, found⟩ := withDigits?_of_whole tie whole nonzero
    cases search : (List.range' 1 17).findSome? (withDigits? tie x) with
    | none =>
      rw [Option.getD_none, Magnitude.exactDecimal]
      split
      next => exact le_rfl
      next fractional =>
        have positive := Magnitude.value_pos nonzero
        have small : decimalOrder x.value < 16 := by
          rw [decimalOrder_eq_log positive, ← Int.lt_zpow_iff_log_lt (by decide) positive]
          refine (Magnitude.value_lt_of_exponent_neg (not_le.1 fractional)).trans ?_
          norm_num
        have inside : (decimalOrder x.value).toNat + 1 ∈ List.range' 1 17 := by
          rw [List.mem_range'_1]
          omega
        rw [List.findSome?_eq_none_iff.1 search _ inside] at found
        exact absurd found (by simp)
    | some d =>
      rw [Option.getD_some]
      obtain ⟨count, hit, missed⟩ := findSome?_range'_le search
      -- A grid finer than the whole numbers comes after theirs, where the search would have ended.
      by_contra fractional
      rw [exponent_of_withDigits? hit] at fractional
      exact missed _ own (by omega) (by omega) found

theorem isDigit_of_mem_cellText {d : Decimal} (whole : 0 ≤ d.exponent) :
    ∀ c ∈ cellLayout.text d, c.isDigit = true := by
  have length : (leadingDigits d.digits).length ≤ (Nat.toDigits 10 d.digits).length := by
    obtain ⟨zeros, digits⟩ := toDigits_eq_leadingDigits d.digits
    rw [digits, List.length_append]
    exact Nat.le_add_right _ _
  have digitsLength : 0 < (Nat.toDigits 10 d.digits).length := Nat.length_toDigits_pos
  have inside : ((leadingDigits d.digits).length : Int) ≤ leadingExponent d + 1 := by
    rw [leadingExponent]
    split
    next zero =>
      rw [zero]
      decide
    next => omega
  have point : ¬ leadingExponent d + 1 ≤ 0 := by
    have := List.length_pos_of_ne_nil (leadingDigits_ne_nil d.digits)
    omega
  have positional : cellLayout.text d =
      leadingDigits d.digits ++ List.replicate
        ((leadingExponent d + 1).toNat - (leadingDigits d.digits).length) '0' := by
    have isPositional : cellLayout.isPositional (leadingExponent d) = true := rfl
    rw [Layout.text, isPositional, if_pos rfl, positionalText, if_neg point, if_pos inside]
    exact List.append_nil _
  rw [positional]
  refine List.forall_mem_append.2 ⟨fun c member => isDigit_of_mem_leadingDigits member, ?_⟩
  exact isDigit_of_mem_zeros _

end Decimal

end BenchStats
