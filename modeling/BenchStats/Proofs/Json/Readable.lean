import BenchStats.Proofs.Binary64.Products
import BenchStats.Proofs.Json.Value

/-!
# Every finite number can be read

Reading a literal fails only where the product of its digits with a power of ten leaves the range
of the format.  The digits and the power are rounded before they are multiplied, which together
adds less than two units of the last bit to the product.  So nothing is lost up to three units below
the end of the range, and the three numbers above that are read one by one.
-/

namespace BenchStats

namespace JsonNumber

/-! ### Digits -/

theorem takeFitting_le (digits : List Char) (start : Nat) :
    (takeFitting start digits).1 * 10 ^ (takeFitting start digits).2.length ≤
      Nat.ofDigitChars 10 digits start := by
  induction digits generalizing start with
  | nil => simp [takeFitting, Nat.ofDigitChars_nil]
  | cons c rest inductionHypothesis =>
    rw [takeFitting]
    split
    next =>
      rw [Nat.ofDigitChars_cons]
      exact inductionHypothesis _
    next =>
      rw [Nat.ofDigitChars_eq_ofDigitChars_zero, Nat.mul_comm]
      exact Nat.le_add_right _ _

theorem length_whole_ofDecimal (negative : Bool) (d : Decimal) :
    (ofDecimal negative d).whole.length ≤ 16 := by
  unfold ofDecimal
  dsimp only
  split
  next positional =>
    have most : Decimal.leadingExponent d ≤ 15 := by
      simp only [Decimal.Layout.isPositional, Decimal.jsonLayout, Option.all_some,
        Bool.and_eq_true, decide_eq_true_eq] at positional
      exact positional.2
    split
    next => simp
    next =>
      split
      next =>
        rw [List.length_append, List.length_replicate]
        omega
      next =>
        rw [List.length_take]
        omega
  next =>
    rw [List.length_take]
    omega

/-! ### Scaling -/

theorem isSome_scaled_of_neg {exponent : Int} (negative : exponent < 0) (x : Binary64) :
    (scaled x exponent).isSome = true := by
  induction steps : exponent.natAbs using Nat.strongRecOn generalizing exponent x with
  | ind n inductionHypothesis =>
    rw [scaled]
    split
    next => rw [if_neg (not_le.2 negative)]; rfl
    next far =>
      split
      next => rfl
      next =>
        rw [if_neg (not_le.2 negative)]
        exact inductionHypothesis _ (by omega) (by omega) _ rfl

end JsonNumber

namespace Binary64

/-- The greatest finite magnitude. -/
def greatest : Magnitude := ⟨2047 * Magnitude.blockSize - 1, by decide⟩

/-- Two units of the last bit below the greatest magnitude. -/
def nearGreatest : Magnitude := ⟨2047 * Magnitude.blockSize - 3, by decide⟩

theorem value_greatest : greatest.value = ((2 : Rat) ^ 53 - 1) * 2 ^ 971 := by
  have significand : greatest.significand = 2 ^ 53 - 1 := by decide
  have exponent : greatest.exponent = (971 : Nat) := by decide
  rw [Magnitude.value, significand, exponent, zpow_natCast]
  norm_num

theorem value_nearGreatest : nearGreatest.value = ((2 : Rat) ^ 53 - 3) * 2 ^ 971 := by
  have significand : nearGreatest.significand = 2 ^ 53 - 3 := by decide
  have exponent : nearGreatest.exponent = (971 : Nat) := by decide
  rw [Magnitude.value, significand, exponent, zpow_natCast]
  norm_num

theorem isFinite_ofRat_of_le_greatest (s : Bool) {q : Rat} (nonneg : 0 ≤ q)
    (le : q ≤ greatest.value) : (ofRat s q).isFinite = true := by
  have top : (finite false greatest).value? = some greatest.value := rfl
  obtain ⟨v, value, -⟩ := exists_value?_of_between value?_zero top
    (le_ofRat s value?_zero nonneg) (ofRat_le s top le)
  exact (toRat_of_value? value).1

/-- The errors of two roundings stay below the distance to the greatest magnitude. -/
theorem grown_twice_le :
    nearGreatest.value * (1 + unitRoundoff + underflowUnit) ^ 2 ≤ greatest.value := by
  have underflow : underflowUnit ≤ (2 : Rat) ^ (-200 : Int) := by
    rw [underflowUnit]
    exact zpow_le_zpow_right₀ (by norm_num) (by decide)
  have growth : (1 + unitRoundoff + underflowUnit) ^ 2 ≤
      (1 + (2 : Rat) ^ (-53 : Int) + (2 : Rat) ^ (-200 : Int)) ^ 2 := by
    have unit := unitRoundoff_pos
    have positive := underflowUnit_pos
    refine pow_le_pow_left₀ (by linarith) ?_ 2
    rw [unitRoundoff]
    linarith
  have enough : ((2 : Rat) ^ 53 - 3) *
      (1 + (2 : Rat) ^ (-53 : Int) + (2 : Rat) ^ (-200 : Int)) ^ 2 ≤ (2 : Rat) ^ 53 - 1 := by
    norm_num
  rw [value_greatest, value_nearGreatest, mul_right_comm]
  refine mul_le_mul_of_nonneg_right ?_ (by positivity)
  exact (mul_le_mul_of_nonneg_left growth (by norm_num)).trans enough

theorem value?_ofRat_le_grown {p v : Rat} (atLeast : 1 ≤ p)
    (rounded : (ofRat false p).value? = some v) :
    v ≤ p * (1 + unitRoundoff + underflowUnit) := by
  have near := (abs_le.1 (abs_value?_ofRat_sub_le rounded)).2
  rw [abs_of_nonneg (zero_le_one.trans atLeast)] at near
  have share := mul_le_mul_of_nonneg_right atLeast underflowUnit_pos.le
  linarith

/-- Two roundings before that of a product do not carry it over the end of the range. -/
theorem isFinite_mul_of_le {p q : Rat} (atLeast : 1 ≤ p) (atLeast' : 1 ≤ q)
    (le : p * q ≤ nearGreatest.value) :
    ((ofRat false p).mul (ofRat false q)).isFinite = true := by
  have inRange : nearGreatest.value ≤ greatest.value := by
    rw [value_greatest, value_nearGreatest]
    exact mul_le_mul_of_nonneg_right (by norm_num) (by positivity)
  have nonneg : 0 ≤ p := zero_le_one.trans atLeast
  have nonneg' : 0 ≤ q := zero_le_one.trans atLeast'
  have left : p ≤ nearGreatest.value := (le_mul_of_one_le_right nonneg atLeast').trans le
  have right : q ≤ nearGreatest.value := (le_mul_of_one_le_left nonneg' atLeast).trans le
  have finite := value?_eq_toRat
    (isFinite_ofRat_of_le_greatest false nonneg (left.trans inRange))
  have finite' := value?_eq_toRat
    (isFinite_ofRat_of_le_greatest false nonneg' (right.trans inRange))
  obtain ⟨s, product⟩ := mul_eq_ofRat finite finite'
  have grown := value?_ofRat_le_grown atLeast finite
  have grown' := value?_ofRat_le_grown atLeast' finite'
  have positive := nonneg_of_value?_ofRat nonneg finite
  have positive' := nonneg_of_value?_ofRat nonneg' finite'
  rw [product]
  refine isFinite_ofRat_of_le_greatest s (mul_nonneg positive positive') ?_
  have share : 0 ≤ 1 + unitRoundoff + underflowUnit := by
    have unit := unitRoundoff_pos
    have underflow := underflowUnit_pos
    linarith
  calc (ofRat false p).toRat * (ofRat false q).toRat
    _ ≤ p * (1 + unitRoundoff + underflowUnit) * (q * (1 + unitRoundoff + underflowUnit)) :=
      mul_le_mul grown grown' positive' (mul_nonneg nonneg share)
    _ = p * q * (1 + unitRoundoff + underflowUnit) ^ 2 := by ring
    _ ≤ nearGreatest.value * (1 + unitRoundoff + underflowUnit) ^ 2 :=
      mul_le_mul_of_nonneg_right le (sq_nonneg _)
    _ ≤ greatest.value := grown_twice_le

end Binary64

namespace JsonNumber

theorem eq_zero_of_far {n exponent : Nat} (far : 308 < exponent)
    (small : (n : Rat) * 10 ^ exponent ≤ Binary64.nearGreatest.value) : n = 0 := by
  by_contra nonzero
  have atLeast : (1 : Rat) ≤ n := by exact_mod_cast Nat.pos_of_ne_zero nonzero
  have power : (10 : Rat) ^ 309 ≤ 10 ^ exponent := pow_le_pow_right₀ (by norm_num) far
  have product : (10 : Rat) ^ 309 ≤ n * 10 ^ exponent :=
    power.trans (le_mul_of_one_le_left (by positivity) atLeast)
  have beyond : Binary64.nearGreatest.value < (10 : Rat) ^ 309 := by
    have powers : 2 ^ 53 * 2 ^ 971 < 10 ^ 309 := by decide +kernel
    rw [Binary64.value_nearGreatest]
    refine (mul_le_mul_of_nonneg_right (sub_le_self _ (by norm_num)) (by positivity)).trans_lt ?_
    exact_mod_cast powers
  exact absurd (product.trans small) (not_le.2 beyond)

theorem powerOfTen_le_greatest {exponent : Nat} (near : exponent ≤ 308) :
    (10 : Rat) ^ exponent ≤ Binary64.greatest.value := by
  have powers : 10 ^ 308 ≤ 9007199254740991 * 2 ^ 971 := by decide +kernel
  have digits : (2 : Rat) ^ 53 - 1 = (9007199254740991 : Nat) := by norm_num
  rw [Binary64.value_greatest, digits]
  refine (pow_le_pow_right₀ (by norm_num) near).trans ?_
  exact_mod_cast powers

theorem isSome_scaled_of_le {n exponent : Nat}
    (small : (n : Rat) * 10 ^ exponent ≤ Binary64.nearGreatest.value) :
    (scaled (.ofNat n) exponent).isSome = true := by
  have nonneg : (0 : Int) ≤ exponent := Int.natCast_nonneg exponent
  by_cases near : exponent ≤ 308
  · have product : ((Binary64.ofNat n).mul (powerOfTen exponent)).isFinite = true := by
      have power : (1 : Rat) ≤ 10 ^ exponent := one_le_pow₀ (by norm_num)
      rw [powerOfTen_eq, Binary64.ofNat]
      rcases Nat.eq_zero_or_pos n with rfl | positive
      · have finite := Binary64.value?_eq_toRat (Binary64.isFinite_ofRat_of_le_greatest false
          (zero_le_one.trans power) (powerOfTen_le_greatest near))
        obtain ⟨s, zero⟩ := Binary64.mul_eq_ofRat Binary64.value?_zero finite
        rw [Nat.cast_zero, Binary64.ofRat, if_pos rfl, ← Binary64.zero, zero, zero_mul]
        exact Binary64.isFinite_ofRat_of_le_greatest s le_rfl Binary64.greatest.value_nonneg
      · exact Binary64.isFinite_mul_of_le (by exact_mod_cast positive) power small
    rw [scaled, Int.natAbs_natCast, if_pos near, if_pos nonneg]
    dsimp only
    rw [if_pos product]
    rfl
  · rw [scaled, Int.natAbs_natCast, if_neg near, eq_zero_of_far (not_le.1 near) small,
      if_pos (by decide)]
    rfl

/-! ### Literals of numbers -/

/-- What is enough for a literal to have a value, in terms of its digits and their scale. -/
def IsInRange (literal : JsonNumber) : Prop :=
  literal.decimal.digits < UInt64.size ∧ 0 ≤ literal.decimal.exponent ∧
    literal.decimal.exponent.natAbs ≤ 308 ∧
    ((Binary64.ofNat literal.decimal.digits).mul
      (powerOfTen literal.decimal.exponent.natAbs)).isFinite = true

instance (literal : JsonNumber) : Decidable literal.IsInRange := instDecidableAnd

theorem IsInRange.isSome_floatValue? {literal : JsonNumber} (inRange : literal.IsInRange) :
    literal.floatValue?.isSome = true := by
  obtain ⟨fits, nonneg, near, product⟩ := inRange
  rw [floatValue?_eq fits, Option.isSome_map, scaled, if_pos near, if_pos nonneg]
  dsimp only
  rw [if_pos product]
  rfl

/-- The three greatest magnitudes are written with seventeen digits, which are read one by one. -/
theorem isInRange_of_greatest (negative : Bool) {m : Magnitude}
    (top : Binary64.nearGreatest.rank ≤ m.rank) :
    (ofDecimal negative (Decimal.shortest Decimal.jsonLayout.tie m)).IsInRange := by
  have each : ∀ negative ∈ [true, false],
      ∀ m ∈ [Binary64.greatest, ⟨2047 * Magnitude.blockSize - 2, by decide⟩, Binary64.nearGreatest],
      (ofDecimal negative (Decimal.shortest Decimal.jsonLayout.tie m)).IsInRange := by
    decide +kernel
  refine each negative (by cases negative <;> decide) m ?_
  have bound := m.rank_lt
  simp only [List.mem_cons, List.not_mem_nil, or_false, Magnitude.ext_iff]
  simp only [Binary64.nearGreatest, Binary64.greatest] at top ⊢
  omega

theorem isSome_floatValue?_of_le {literal : JsonNumber}
    (fits : Nat.ofDigitChars 10 literal.whole 0 < UInt64.size)
    (small : literal.decimal.value ≤ Binary64.nearGreatest.value) :
    literal.floatValue?.isSome = true := by
  have taken := takeFitting_le literal.fraction (Nat.ofDigitChars 10 literal.whole 0)
  rw [← Nat.ofDigitChars_append] at taken
  rw [floatValue?, takeFitting_eq fits]
  dsimp only
  generalize takeFitting (Nat.ofDigitChars 10 literal.whole 0) literal.fraction = split at taken ⊢
  obtain ⟨significand, left⟩ := split
  dsimp only at taken ⊢
  rw [Option.isSome_map]
  rcases lt_or_ge (literal.exponent.getD 0 + ([] : List Char).length + left.length -
      literal.fraction.length) 0 with negative | nonneg
  · exact isSome_scaled_of_neg negative _
  · obtain ⟨exponent, scale⟩ := Int.eq_ofNat_of_zero_le nonneg
    rw [scale]
    refine isSome_scaled_of_le (le_trans ?_ small)
    have places : (exponent : Int) = left.length + literal.decimal.exponent := by
      show (exponent : Int) = left.length + (literal.exponent.getD 0 - literal.fraction.length)
      simp only [List.length_nil, Int.natCast_zero] at scale
      omega
    calc (significand : Rat) * 10 ^ exponent
      _ = (significand * 10 ^ left.length : Nat) * (10 : Rat) ^ literal.decimal.exponent := by
        rw [← zpow_natCast, places, zpow_add₀ (by norm_num), zpow_natCast]
        push_cast
        ring
      _ ≤ literal.decimal.value :=
        mul_le_mul_of_nonneg_right (by exact_mod_cast taken) (zpow_pos (by norm_num) _).le

/-- Every finite number has a literal with a value. -/
theorem isSome_floatValue?_of_float {x : Binary64} {literal : JsonNumber}
    (written : ofNumber? (.float x) = some literal) : literal.floatValue?.isSome = true := by
  cases x with
  | nan => cases written
  | infinite negative => cases written
  | finite negative m =>
    rw [ofNumber?, Option.some.injEq] at written
    rw [← written]
    by_cases top : Binary64.nearGreatest.rank ≤ m.rank
    · exact (isInRange_of_greatest negative top).isSome_floatValue?
    · have few := length_whole_ofDecimal negative (Decimal.shortest Decimal.jsonLayout.tie m)
      have digits := Decimal.ofDigitChars_lt
        (wellFormed_ofDecimal (Decimal.shortest Decimal.jsonLayout.tie m) negative).whole_isDigit
      refine isSome_floatValue?_of_le ?_ ?_
      · refine digits.trans_le ((Nat.pow_le_pow_right (by decide) few).trans ?_)
        decide
      · rw [value_decimal_ofDecimal negative (Decimal.natAbs_leadingExponent_shortest_lt _ m)]
        by_contra larger
        have order := Magnitude.nearestRank_mono Binary64.nearGreatest.value_nonneg
          (not_le.1 larger).le
        rw [Magnitude.nearestRank_value,
          ← Magnitude.rank_of_nearest? (Decimal.nearest?_shortest _ m)] at order
        exact top order

end JsonNumber

end BenchStats
