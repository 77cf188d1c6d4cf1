import BenchStats.Binary64.Rounding
import Mathlib.Data.Int.Log
import Mathlib.Data.Rat.Floor
import Mathlib.Tactic.Linarith

/-!
# Representable values

A value that the format has rounds to itself: the rank is read off the kept exponent and the
significand.  Conversely, only values within the range of the format round to a magnitude other
than zero.
-/

namespace BenchStats

theorem log_eq_of_zpow_le {base : Nat} {q : Rat} {order : Int} (big : 1 < base) (positive : 0 < q)
    (lower : (base : Rat) ^ order ≤ q) (upper : q < (base : Rat) ^ (order + 1)) :
    Int.log base q = order := by
  have least := (Int.zpow_le_iff_le_log big positive).1 lower
  have greatest := (Int.lt_zpow_iff_log_lt big positive).1 upper
  omega

/-- The order of a quotient in a base is found from the orders of numerator and denominator. -/
theorem log_eq_of_orders {base a c : Nat} {q : Rat} (big : 1 < base) (positive : 0 < q)
    (numLower : base ^ a ≤ q.num.natAbs) (numUpper : q.num.natAbs < base ^ (a + 1))
    (denLower : base ^ c ≤ q.den) (denUpper : q.den < base ^ (c + 1)) :
    (if (base : Rat) ^ ((a : Int) - c) ≤ q then (a : Int) - c else (a : Int) - c - 1) =
      Int.log base q := by
  have basePos : (0 : Rat) < base := by exact_mod_cast Nat.zero_lt_of_lt big
  have baseNe : (base : Rat) ≠ 0 := basePos.ne'
  have denPos : (0 : Rat) < q.den := by exact_mod_cast q.den_pos
  have quotient : q * q.den = q.num.natAbs := by
    have unsigned : ((q.num.natAbs : Int) : Rat) = q.num := by
      rw [Int.natAbs_of_nonneg (Rat.num_nonneg.2 positive.le)]
    rw [Rat.mul_den_eq_num, ← unsigned, Int.cast_natCast]
  have upper : q < (base : Rat) ^ ((a : Int) - c + 1) := by
    refine lt_of_mul_lt_mul_right ?_ denPos.le
    calc q * q.den < (base : Rat) ^ (a + 1) := by rw [quotient]; exact_mod_cast numUpper
      _ = (base : Rat) ^ ((a : Int) - c + 1) * (base : Rat) ^ c := by
        rw [← zpow_natCast, ← zpow_natCast, ← zpow_add₀ baseNe]
        congr 1
        omega
      _ ≤ (base : Rat) ^ ((a : Int) - c + 1) * q.den := by
        refine mul_le_mul_of_nonneg_left ?_ (zpow_pos basePos _).le
        exact_mod_cast denLower
  have lower : (base : Rat) ^ ((a : Int) - c - 1) ≤ q := by
    refine le_of_mul_le_mul_right ?_ denPos
    calc (base : Rat) ^ ((a : Int) - c - 1) * q.den
      _ ≤ (base : Rat) ^ ((a : Int) - c - 1) * (base : Rat) ^ (c + 1) := by
        refine mul_le_mul_of_nonneg_left ?_ (zpow_pos basePos _).le
        exact_mod_cast denUpper.le
      _ = (base : Rat) ^ a := by
        rw [← zpow_natCast, ← zpow_natCast, ← zpow_add₀ baseNe]
        congr 1
        omega
      _ ≤ q * q.den := by rw [quotient]; exact_mod_cast numLower
  split
  next above => exact (log_eq_of_zpow_le big positive above upper).symm
  next below =>
    refine (log_eq_of_zpow_le big positive lower ?_).symm
    rw [sub_add_cancel]
    exact not_le.1 below

theorem binaryOrder_eq_log {q : Rat} (positive : 0 < q) : binaryOrder q = Int.log 2 q := by
  have numPos : q.num.natAbs ≠ 0 := by
    simpa using positive.ne'
  exact log_eq_of_orders (by decide) positive (Nat.log2_self_le numPos) Nat.lt_log2_self
    (Nat.log2_self_le q.den_nz) Nat.lt_log2_self

theorem toDigits_order {n : Nat} (positive : 0 < n) :
    10 ^ ((Nat.toDigits 10 n).length - 1) ≤ n ∧ n < 10 ^ (Nat.toDigits 10 n).length := by
  constructor
  · by_cases single : (Nat.toDigits 10 n).length - 1 = 0
    · rw [single]
      exact positive
    · refine not_lt.1 fun below => ?_
      have := (Nat.length_toDigits_le_iff (by decide) (Nat.pos_of_ne_zero single)).2 below
      omega
  · exact (Nat.length_toDigits_le_iff (by decide) Nat.length_toDigits_pos).1 le_rfl

@[simp] theorem roundHalfEven_intCast (n : Int) : roundHalfEven (n : Rat) = n := by
  have rest : (n : Rat) - ((n : Rat).floor : Rat) < 1 / 2 := by
    rw [Rat.floor_intCast]
    norm_num
  rw [roundHalfEven, if_pos rest, Rat.floor_intCast]

theorem roundHalfEven_of_lt_half {q : Rat} (nonneg : 0 ≤ q) (small : q < 1 / 2) :
    roundHalfEven q = 0 := by
  have floorZero : q.floor = 0 := Int.floor_eq_zero_iff.2 ⟨nonneg, by linarith⟩
  have rest : q - (q.floor : Rat) < 1 / 2 := by
    rw [floorZero]
    simpa using small
  rw [roundHalfEven, if_pos rest, floorZero]

@[simp] theorem two_zpow_pos (e : Int) : (0 : Rat) < (2 : Rat) ^ e := zpow_pos (by norm_num) e

theorem mul_two_zpow_pos {digits : Nat} (positive : 0 < digits) (e : Int) :
    (0 : Rat) < (digits : Rat) * (2 : Rat) ^ e :=
  mul_pos (by exact_mod_cast positive) (two_zpow_pos e)

theorem binaryOrder_lt_of_digits {digits count : Nat} (positive : 0 < digits)
    (few : digits < 2 ^ count) (e : Int) :
    binaryOrder ((digits : Rat) * (2 : Rat) ^ e) < count + e := by
  have scaled := mul_two_zpow_pos positive e
  rw [binaryOrder_eq_log scaled, ← Int.lt_zpow_iff_log_lt (by decide) scaled]
  calc (digits : Rat) * (2 : Rat) ^ e
    _ < (2 : Rat) ^ count * (2 : Rat) ^ e := by
      refine mul_lt_mul_of_pos_right ?_ (two_zpow_pos e)
      exact_mod_cast few
    _ = (2 : Rat) ^ (count + e : Int) := by rw [← zpow_natCast, ← zpow_add₀ (by norm_num)]

theorem binaryOrder_of_digits {digits count : Nat} (enough : 2 ^ count ≤ digits)
    (few : digits < 2 ^ (count + 1)) (e : Int) :
    binaryOrder ((digits : Rat) * (2 : Rat) ^ e) = count + e := by
  have positive : 0 < digits := Nat.lt_of_lt_of_le (Nat.two_pow_pos count) enough
  have scaled := mul_two_zpow_pos positive e
  have above := binaryOrder_lt_of_digits positive few e
  have below : (count : Int) + e ≤ binaryOrder ((digits : Rat) * (2 : Rat) ^ e) := by
    rw [binaryOrder_eq_log scaled, ← Int.zpow_le_iff_le_log (by decide) scaled]
    calc (2 : Rat) ^ (count + e : Int)
      _ = (2 : Rat) ^ count * (2 : Rat) ^ e := by rw [← zpow_natCast, ← zpow_add₀ (by norm_num)]
      _ ≤ (digits : Rat) * (2 : Rat) ^ e := by
        refine mul_le_mul_of_nonneg_right ?_ (two_zpow_pos e).le
        exact_mod_cast enough
  omega

namespace Magnitude

/-- The two kinds of magnitude: below the first full block, or with a leading bit. -/
theorem value_cases (x : Magnitude) :
    (x.rank < blockSize ∧ x.value = (x.rank : Rat) * (2 : Rat) ^ (-1074 : Int)) ∨
      ∃ block place : Nat, place < blockSize ∧ x.rank = (block + 1) * blockSize + place ∧
        x.value = ((blockSize + place : Nat) : Rat) * (2 : Rat) ^ ((block : Int) - 1074) := by
  by_cases first : x.rank < blockSize
  · refine Or.inl ⟨first, ?_⟩
    rw [value, significand, if_pos first, exponent, Nat.div_eq_of_lt first]
    norm_num
  · have full : 0 < x.rank / blockSize := Nat.div_pos (not_lt.1 first) (by decide)
    obtain ⟨block, blocks⟩ := Nat.exists_eq_add_of_lt full
    refine Or.inr ⟨block, x.rank % blockSize, Nat.mod_lt _ (by decide), ?_, ?_⟩
    · rw [← Nat.zero_add block, ← blocks, Nat.mul_comm]
      exact (Nat.div_add_mod _ _).symm
    · have scale : x.exponent = (block : Int) - 1074 := by
        rw [exponent, blocks]
        omega
      rw [value, significand, if_neg first, scale]

@[simp] theorem value_zero : zero.value = 0 := by
  rw [value]
  simp [significand, zero, blockSize]

@[simp] theorem value_nonneg (x : Magnitude) : 0 ≤ x.value :=
  mul_nonneg (Nat.cast_nonneg _) (two_zpow_pos _).le

@[simp] theorem value_pos {x : Magnitude} (nonzero : x ≠ zero) : 0 < x.value := by
  rcases x.value_cases with ⟨-, value⟩ | ⟨block, place, -, -, value⟩
  · rw [value]
    refine mul_two_zpow_pos ?_ _
    exact Nat.pos_of_ne_zero fun rankZero => nonzero (Magnitude.ext rankZero)
  · rw [value]
    exact mul_two_zpow_pos (Nat.add_pos_left (by decide) place) _

theorem nearestRank_of_kept {q : Rat} {digits : Nat} {e : Int} (positive : 0 < q)
    (kept : keptExponent q = e) (exact : q = (digits : Rat) * (2 : Rat) ^ e) :
    nearestRank q = digits + (e + 1074).toNat * blockSize := by
  have quotient : q / (2 : Rat) ^ e = ((digits : Int) : Rat) := by
    rw [exact, mul_div_cancel_right₀ _ (two_zpow_pos e).ne', Int.cast_natCast]
  rw [nearestRank, if_neg positive.ne']
  simp only [kept, quotient, roundHalfEven_intCast, Int.toNat_natCast]

@[simp] theorem nearestRank_value (x : Magnitude) : nearestRank x.value = x.rank := by
  by_cases nonzero : x = zero
  · rw [nonzero, value_zero, nearestRank, if_pos rfl, zero]
  have positive := value_pos nonzero
  rcases x.value_cases with ⟨first, value⟩ | ⟨block, place, inBlock, rank, value⟩
  · have rankPos : 0 < x.rank :=
      Nat.pos_of_ne_zero fun rankZero => nonzero (Magnitude.ext rankZero)
    have order : binaryOrder ((x.rank : Rat) * (2 : Rat) ^ (-1074 : Int)) < (52 : Nat) + -1074 :=
      binaryOrder_lt_of_digits rankPos first (-1074)
    have kept : keptExponent x.value = -1074 := by
      rw [keptExponent, value]
      omega
    rw [nearestRank_of_kept positive kept value]
    simp
  · have order : binaryOrder ((blockSize + place : Nat) * (2 : Rat) ^ ((block : Int) - 1074)) =
        (52 : Nat) + ((block : Int) - 1074) := by
      refine binaryOrder_of_digits (Nat.le_add_right blockSize place) ?_ _
      exact Nat.add_lt_add_left inBlock blockSize
    have kept : keptExponent x.value = (block : Int) - 1074 := by
      rw [keptExponent, value, order]
      omega
    have blocks : ((block : Int) - 1074 + 1074).toNat = block := by omega
    rw [nearestRank_of_kept positive kept value, blocks, rank, Nat.succ_mul]
    omega

theorem rank_of_nearest? {q : Rat} {x : Magnitude} (nearest : nearest? q = some x) :
    x.rank = nearestRank q := by
  unfold nearest? at nearest
  split at nearest
  next => exact congrArg rank (Option.some.inj nearest).symm
  next => cases nearest

@[simp] theorem nearest?_value (x : Magnitude) : nearest? x.value = some x := by
  rw [nearest?, dif_pos (by rw [nearestRank_value]; exact x.rank_lt)]
  exact congrArg some (Magnitude.ext (nearestRank_value x))

theorem lt_of_nearest? {q : Rat} {x : Magnitude} (nearest : nearest? q = some x) :
    q < (2 : Rat) ^ (1025 : Int) := by
  by_contra large
  have positive : 0 < q := lt_of_lt_of_le (two_zpow_pos _) (not_lt.1 large)
  have order : 1025 ≤ binaryOrder q := by
    rw [binaryOrder_eq_log positive]
    exact (Int.zpow_le_iff_le_log (by decide) positive).1 (not_lt.1 large)
  have blocks : 2047 * blockSize ≤ (keptExponent q + 1074).toNat * blockSize := by
    apply Nat.mul_le_mul_right
    rw [keptExponent]
    omega
  have outside : ¬ nearestRank q < 2047 * blockSize := by
    simp only [nearestRank, if_neg positive.ne']
    omega
  rw [nearest?, dif_neg outside] at nearest
  exact absurd nearest (by simp)

theorem lt_of_nearest?_ne_zero {q : Rat} {x : Magnitude} (nonneg : 0 ≤ q)
    (nearest : nearest? q = some x) (nonzero : x ≠ zero) : (2 : Rat) ^ (-1076 : Int) < q := by
  by_contra small
  apply nonzero
  have rankZero : nearestRank q = 0 := by
    by_cases exactZero : q = 0
    · rw [nearestRank, if_pos exactZero]
    have positive : 0 < q := lt_of_le_of_ne nonneg (Ne.symm exactZero)
    have order : binaryOrder q < -1075 := by
      rw [binaryOrder_eq_log positive, ← Int.lt_zpow_iff_log_lt (by decide) positive]
      apply lt_of_le_of_lt (not_lt.1 small)
      exact zpow_lt_zpow_right₀ (by norm_num) (by decide)
    have kept : keptExponent q = -1074 := by
      rw [keptExponent]
      omega
    have belowHalf : q / (2 : Rat) ^ (-1074 : Int) < 1 / 2 := by
      rw [div_lt_iff₀ (two_zpow_pos _)]
      calc q
        _ ≤ (2 : Rat) ^ (-2 + -1074 : Int) := not_lt.1 small
        _ < 1 / 2 * (2 : Rat) ^ (-1074 : Int) := by
          rw [zpow_add₀ (by norm_num)]
          exact mul_lt_mul_of_pos_right (by norm_num) (two_zpow_pos _)
    rw [nearestRank, if_neg exactZero]
    simp only [kept, roundHalfEven_of_lt_half (div_nonneg nonneg (two_zpow_pos _).le) belowHalf]
    decide
  rw [nearest?, dif_pos (by rw [rankZero]; decide)] at nearest
  rw [← Option.some.inj nearest]
  exact Magnitude.ext rankZero

end Magnitude

namespace Binary64

theorem ofRat_of_nearest? (negative : Bool) {q : Rat} {x : Magnitude} (nonneg : 0 ≤ q)
    (nearest : Magnitude.nearest? q = some x) :
    ofRat negative (if negative then -q else q) = .finite negative x := by
  by_cases exactZero : q = 0
  · rw [exactZero, ← Magnitude.value_zero, Magnitude.nearest?_value, Option.some.injEq] at nearest
    rw [exactZero, neg_zero, ite_self, ofRat, if_pos rfl, nearest]
  have positive : 0 < q := lt_of_le_of_ne nonneg (Ne.symm exactZero)
  cases negative with
  | false =>
    simp only [Bool.false_eq_true, if_false, ofRat, if_neg exactZero, if_neg nonneg.not_gt, nearest,
      decide_eq_false nonneg.not_gt]
  | true =>
    have below : -q < 0 := neg_lt_zero.2 positive
    simp only [if_true, ofRat, if_neg below.ne, if_pos below, neg_neg, nearest,
      decide_eq_true below]

@[simp]
theorem isNaN_ofRat (zeroNegative : Bool) (q : Rat) : (ofRat zeroNegative q).isNaN = false := by
  unfold ofRat
  split
  next => rfl
  next => dsimp only; split <;> rfl

end Binary64

end BenchStats
