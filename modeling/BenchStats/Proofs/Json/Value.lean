import BenchStats.Proofs.Binary64.Exchange
import BenchStats.Proofs.Json.Number

/-!
# What a written number denotes

An integer comes back from its literal.  A floating-point number comes back at least where the
digits of its literal make up a number of the format exactly and are scaled by a power of ten that
is one, too: then the only rounding is that of the product or the quotient.
-/

namespace BenchStats

namespace JsonNumber

theorem takeFitting_eq {digits : List Char} {start : Nat}
    (fits : Nat.ofDigitChars 10 digits start < UInt64.size) :
    takeFitting start digits = (Nat.ofDigitChars 10 digits start, []) := by
  induction digits generalizing start with
  | nil => rw [takeFitting, Nat.ofDigitChars_nil]
  | cons c rest inductionHypothesis =>
    rw [Nat.ofDigitChars_cons] at fits ⊢
    rw [takeFitting, if_pos ((Decimal.le_ofDigitChars rest _).trans_lt fits),
      inductionHypothesis fits]

theorem floatValue?_eq {literal : JsonNumber} (fits : literal.decimal.digits < UInt64.size) :
    literal.floatValue? = (scaled (.ofNat literal.decimal.digits) literal.decimal.exponent).map
      fun x => if literal.negative then x.neg else x := by
  rw [decimal, Nat.ofDigitChars_append] at fits
  have whole := takeFitting_eq ((Decimal.le_ofDigitChars literal.fraction _).trans_lt fits)
  have fraction := takeFitting_eq fits
  rw [floatValue?]
  simp only [whole, fraction, decimal, Nat.ofDigitChars_append, List.length_nil, Int.natCast_zero,
    Int.add_zero]

theorem eq_finite_of_exact {q : Rat} (nonneg : 0 ≤ q)
    (exact : (Binary64.ofRat false q).value? = some q) :
    ∃ m : Magnitude, Binary64.ofRat false q = .finite false m ∧ m.value = q := by
  obtain ⟨negative, m, same, value⟩ := Binary64.eq_finite_of_value? exact
  rcases Binary64.signedValue_cases (value ▸ nonneg) with ⟨rfl, zero⟩ | ⟨rfl, -, -⟩
  · rw [zero] at value
    exact ⟨.zero, by rw [← value, Binary64.ofRat, if_pos rfl], Magnitude.value_zero.trans value⟩
  · exact ⟨m, same, value⟩

theorem powerOfTen_eq (exponent : Nat) :
    powerOfTen exponent = .ofRat false ((10 : Rat) ^ exponent) := by
  rw [powerOfTen, Binary64.ofDecimal, if_neg Bool.false_ne_true, Decimal.value, zpow_natCast,
    Nat.cast_one, one_mul]

theorem exists_powerOfTen {exponent : Nat} (small : exponent ≤ 22) :
    ∃ m : Magnitude, powerOfTen exponent = .finite false m ∧ m.value = (10 : Rat) ^ exponent := by
  have few : ((5 : Int) ^ exponent).natAbs ≤ 2 ^ 53 := by
    rw [Int.natAbs_pow]
    exact (Nat.pow_le_pow_right (by decide) small).trans (by decide)
  have kept := Binary64.value?_ofRat_of_digits false (5 ^ exponent) exponent few (by omega)
    (by omega)
  have digits : (((5 : Int) ^ exponent : Int) : Rat) * (2 : Rat) ^ (exponent : Int) =
      (10 : Rat) ^ exponent := by
    rw [Int.cast_pow, zpow_natCast, ← mul_pow]
    norm_num
  rw [digits] at kept
  obtain ⟨m, same, value⟩ := eq_finite_of_exact (by positivity) kept
  exact ⟨m, (powerOfTen_eq exponent).trans same, value⟩

theorem scaled_of_exact {n : Nat} {exponent : Int} (few : n ≤ 2 ^ 53)
    (near : exponent.natAbs ≤ 22) :
    scaled (.ofNat n) exponent = some (.ofDecimal false ⟨n, exponent⟩) := by
  obtain ⟨m, digits, digitsValue⟩ :=
    eq_finite_of_exact (Nat.cast_nonneg n) (Binary64.value?_ofNat few)
  obtain ⟨p, power, powerValue⟩ := exists_powerOfTen near
  have result : Binary64.ofDecimal false ⟨n, exponent⟩ =
      .ofRat false ((n : Rat) * (10 : Rat) ^ exponent) := rfl
  rw [scaled, if_pos (near.trans (by decide)), Binary64.ofNat, digits, power, result]
  split
  next nonneg =>
    have scale : (10 : Rat) ^ exponent = p.value := by
      rw [powerValue, ← zpow_natCast, Int.natAbs_of_nonneg nonneg]
    have product : (Binary64.finite false m).mul (.finite false p) =
        .ofRat false (m.value * p.value) := rfl
    have small : |m.value * p.value| ≤ 2 ^ 127 := by
      have digitsSmall : (n : Rat) ≤ 2 ^ 53 := by exact_mod_cast few
      have powerSmall : (10 : Rat) ^ exponent.natAbs ≤ 10 ^ 22 :=
        pow_le_pow_right₀ (by norm_num) near
      rw [abs_of_nonneg (mul_nonneg m.value_nonneg p.value_nonneg), digitsValue, powerValue]
      refine (mul_le_mul digitsSmall powerSmall (by positivity) (by positivity)).trans ?_
      norm_num
    obtain ⟨v, value, -⟩ := Binary64.exists_value?_of_abs_le false (by decide) small
    obtain ⟨s, k, same, -⟩ := Binary64.eq_finite_of_value? value
    rw [← digitsValue, scale, product, same]
    rfl
  next negative =>
    have scale : (10 : Rat) ^ exponent = p.value⁻¹ := by
      rw [powerValue, ← zpow_natCast, ← zpow_neg]
      congr 1
      omega
    have nonzero : p ≠ .zero := by
      rintro rfl
      rw [Magnitude.value_zero] at powerValue
      exact absurd powerValue.symm (pow_ne_zero _ (by norm_num))
    rw [Binary64.div, if_neg nonzero, ← digitsValue, scale, ← div_eq_mul_inv]
    rfl

/-- A literal of few digits and a small power of ten denotes the number nearest to its value. -/
theorem floatValue?_of_exact {literal : JsonNumber} (few : literal.decimal.digits ≤ 2 ^ 53)
    (near : literal.decimal.exponent.natAbs ≤ 22) :
    literal.floatValue? = some (.ofDecimal literal.negative literal.decimal) := by
  rw [floatValue?_eq (few.trans_lt (by decide)), scaled_of_exact few near, Option.map_some]
  congr 1
  cases literal.negative with
  | false => rfl
  | true =>
    exact Binary64.neg_ofRat false literal.decimal.value

/-! ### Numbers -/

@[simp] theorem literal?_unsignedText {literal : JsonNumber} (wellFormed : literal.WellFormed)
    (small : ∀ exponent ∈ literal.exponent, exponent.natAbs < 65536) :
    Decimal.literal? literal.unsignedText = some literal.decimal := by
  have exponent : Decimal.exponent? (exponentText literal.exponent) =
      some (literal.exponent.getD 0) := by
    cases written : literal.exponent with
    | none => rfl
    | some exponent => exact Decimal.exponent?_written true (small exponent written)
  rw [unsignedText, decimal]
  by_cases whole : literal.fraction = []
  · have read := Decimal.literal?_of_whole wellFormed.whole_ne_nil wellFormed.whole_isDigit exponent
    rw [whole, fractionText, List.nil_append, List.append_nil, read, List.length_nil,
      Int.natCast_zero, Int.sub_zero]
  · rw [fractionText_of_ne_nil whole, List.cons_append]
    exact Decimal.literal?_of_point wellFormed.whole_ne_nil wellFormed.whole_isDigit
      wellFormed.fraction_isDigit exponent

theorem exponent_ofDecimal {negative : Bool} {d : Decimal} {exponent : Int}
    (written : exponent ∈ (ofDecimal negative d).exponent) : exponent = d.leadingExponent := by
  unfold ofDecimal at written
  dsimp only at written
  split at written
  next => split at written <;> (try split at written) <;> simp at written
  next => exact (Option.some.inj written).symm

@[simp] theorem value_decimal_ofDecimal (negative : Bool) {d : Decimal}
    (small : d.leadingExponent.natAbs < 65536) :
    (ofDecimal negative d).decimal.value = d.value := by
  obtain ⟨read, written, value⟩ := Decimal.literal?_text Decimal.jsonLayout small
  rw [← text_ofDecimal d negative, literal?_unsignedText (wellFormed_ofDecimal d negative)
    fun exponent member => exponent_ofDecimal member ▸ small, Option.some.injEq] at written
  rw [written, value]

theorem value?_of_int {value : Int64} {literal : JsonNumber}
    (written : ofNumber? (.int value) = some literal) : literal.value? = some (.int value) := by
  rw [ofNumber?, Option.some.injEq] at written
  have integer : literal.intValue? = some value := by
    rw [← written, intValue?]
    simp only [List.isEmpty_nil, Option.isNone_none, Bool.and_true, if_true,
      Nat.ofDigitChars_ten_toDigits, decide_eq_true_eq]
    by_cases negative : value.toInt < 0
    · have nonzero : ¬ (value.toInt.natAbs : Int) = 0 := by omega
      have signed : -(value.toInt.natAbs : Int) = value.toInt := by omega
      rw [if_pos negative, if_neg nonzero, signed, Number.fitInt?_toInt]
    · have unsigned : (value.toInt.natAbs : Int) = value.toInt := by omega
      simp [negative, unsigned]
  rw [value?, integer]

/-- The literal of a floating-point number is never taken for an integer. -/
theorem value?_of_float {x : Binary64} {literal : JsonNumber}
    (written : ofNumber? (.float x) = some literal) :
    literal.value? = literal.floatValue?.map .float := by
  cases x with
  | nan => cases written
  | infinite negative => cases written
  | finite negative m =>
    rw [ofNumber?, Option.some.injEq] at written
    have marked := fraction_or_exponent_ofDecimal
      (Decimal.shortest Decimal.jsonLayout.tie m) negative
    rw [written] at marked
    have noInteger : literal.intValue? = none := by
      rw [intValue?, if_neg]
      rcases marked with fraction | exponent
      · simp [fraction]
      · simp [Option.isNone_iff_eq_none, Option.isSome_iff_ne_none.1 exponent]
    rw [value?, noInteger]

theorem ofDecimal_of_float {x : Binary64} {literal : JsonNumber}
    (written : ofNumber? (.float x) = some literal) :
    .ofDecimal literal.negative literal.decimal = x := by
  cases x with
  | nan => cases written
  | infinite negative => cases written
  | finite negative m =>
    rw [ofNumber?, Option.some.injEq] at written
    rw [← written, negative_ofDecimal, Binary64.ofDecimal, value_decimal_ofDecimal negative
      (Decimal.natAbs_leadingExponent_shortest_lt _ m), ← Binary64.ofDecimal,
      Decimal.ofDecimal_shortest]

end JsonNumber

end BenchStats
