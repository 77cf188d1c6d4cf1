import BenchStats.Proofs.Binary64.Products
import Mathlib.Algebra.Order.BigOperators.Group.List

/-!
# Rounded sums

A rounded sum of finite numbers is monotone in its summands, also where it leaves the range of the
format.  A sum that stays in the range is within a relative error of the exact one that every
rounding makes larger by the unit roundoff.
-/

namespace BenchStats.Binary64

section Monotone

variable {a b : Binary64}

@[simp] theorem infinite_le (number : a.isNaN = false) : (infinite true).le a = true := by
  have least : (infinite true).isNaN = false := rfl
  rcases le_total least number with below | above
  · exact below
  · rw [eq_infinite_of_ge above]
    exact le_refl least

@[simp] theorem le_infinite (number : a.isNaN = false) : a.le (infinite false) = true := by
  have greatest : (infinite false).isNaN = false := rfl
  rcases le_total number greatest with below | above
  · exact below
  · rw [eq_infinite_of_le above]
    exact le_refl greatest

/-- An operation that rounds the values of an exact one and leaves the infinities as they are. -/
structure Rounds (operation : Binary64 → Binary64) (exact : Rat → Rat) : Prop where
  finite {x : Binary64} {v : Rat} : x.value? = some v → ∃ s, operation x = ofRat s (exact v)
  infinite (negative : Bool) : operation (.infinite negative) = .infinite negative

theorem rounds_add {c : Binary64} {w : Rat} (summand : c.value? = some w) :
    Rounds (·.add c) (· + w) where
  finite value := add_eq_ofRat value summand
  infinite negative := by
    obtain ⟨s, m, rfl, -⟩ := eq_finite_of_value? summand
    rfl

theorem rounds_div {c : Binary64} {w : Rat} (divisor : c.value? = some w) (positive : 0 < w) :
    Rounds (·.div c) (· / w) where
  finite value := div_eq_ofRat value divisor positive.ne'
  infinite negative := by
    obtain ⟨s, m, rfl, rfl⟩ := eq_finite_of_value? divisor
    rcases signedValue_cases positive.le with ⟨-, zero⟩ | ⟨rfl, -, -⟩
    · exact absurd zero positive.ne'
    · exact congrArg Binary64.infinite (Bool.xor_false negative)

variable {f g : Binary64 → Binary64} {exact exact' : Rat → Rat}

theorem Rounds.isNaN (rounds : Rounds f exact) (number : a.isNaN = false) :
    (f a).isNaN = false := by
  rcases finite_or_infinite number with ⟨x, value⟩ | ⟨negative, rfl⟩
  · obtain ⟨s, result⟩ := rounds.finite value
    rw [result]
    exact isNaN_eq_false_iff.2 ⟨_, numericKey?_ofRat s (exact x)⟩
  · rw [rounds.infinite]
    rfl

/-- Rounding keeps the order of exact operations, and so do the infinities. -/
theorem Rounds.mono (rounds : Rounds f exact) (rounds' : Rounds g exact')
    (grows : ∀ x y, x ≤ y → exact x ≤ exact' y) (le : a.le b = true) : (f a).le (g b) = true := by
  have number := rounds.isNaN (isNaN_left le)
  have number' := rounds'.isNaN (isNaN_right le)
  rcases finite_or_infinite (isNaN_left le) with ⟨x, left⟩ | ⟨_ | _, rfl⟩
  · rcases finite_or_infinite (isNaN_right le) with ⟨y, right⟩ | ⟨_ | _, rfl⟩
    · obtain ⟨s, result⟩ := rounds.finite left
      obtain ⟨t, result'⟩ := rounds'.finite right
      rw [result, result']
      exact ofRat_le_ofRat s t (grows x y ((le_iff_of_value? left right).1 le))
    · rw [rounds'.infinite]
      exact le_infinite number
    · rw [eq_infinite_of_ge le] at left
      cases left
  · rw [eq_infinite_of_le le, rounds'.infinite, rounds.infinite]
    exact le_refl rfl
  · rw [rounds.infinite]
    exact infinite_le number'

theorem add_mono {c d : Binary64} (le : a.le b = true) (le' : c.le d = true)
    (finite : c.isFinite = true) (finite' : d.isFinite = true) :
    (a.add c).le (b.add d) = true := by
  have lower := value?_eq_toRat finite
  have upper := value?_eq_toRat finite'
  have summands : c.toRat ≤ d.toRat := (le_iff_of_value? lower upper).1 le'
  have sums := (rounds_add lower).mono (rounds_add upper)
    (fun _ _ up => add_le_add up summands) le
  exact sums

theorem div_mono {c : Binary64} {w : Rat} (le : a.le b = true) (divisor : c.value? = some w)
    (positive : 0 < w) : (a.div c).le (b.div c) = true := by
  have rounds := rounds_div divisor positive
  have quotients := rounds.mono rounds (fun _ _ up => div_le_div_of_nonneg_right up positive.le) le
  exact quotients

end Monotone

@[simp]
theorem sum_concat (xs : List Binary64) (x : Binary64) : sum (xs ++ [x]) = (sum xs).add x := by
  rw [sum, List.foldl_append]
  rfl

theorem foldl_add_mono {xs ys : List Binary64} {a b : Binary64}
    (each : List.Forall₂ (fun x y => x.le y = true) xs ys) (finite : ∀ x ∈ xs, x.isFinite = true)
    (finite' : ∀ y ∈ ys, y.isFinite = true) (le : a.le b = true) :
    (xs.foldl add a).le (ys.foldl add b) = true := by
  induction each generalizing a b with
  | nil => exact le
  | cons first _ inductionHypothesis =>
    rw [List.forall_mem_cons] at finite finite'
    exact inductionHypothesis finite.2 finite'.2 (add_mono le first finite.1 finite'.1)

theorem sum_mono {xs ys : List Binary64} (each : List.Forall₂ (fun x y => x.le y = true) xs ys)
    (finite : ∀ x ∈ xs, x.isFinite = true) (finite' : ∀ y ∈ ys, y.isFinite = true) :
    (sum xs).le (sum ys) = true :=
  foldl_add_mono each finite finite' (le_refl rfl)

theorem nonneg_add {a b : Binary64} (left : zero.le a = true) (right : zero.le b = true) :
    zero.le (a.add b) = true := by
  rcases finite_or_infinite (isNaN_right right) with ⟨v, value⟩ | ⟨_ | _, rfl⟩
  · have zeros : zero.add zero = zero := by decide +kernel
    have sums := add_mono left right rfl (toRat_of_value? value).1
    rwa [zeros] at sums
  · rcases finite_or_infinite (isNaN_right left) with ⟨w, value⟩ | ⟨_ | _, rfl⟩
    · obtain ⟨s, m, rfl, -⟩ := eq_finite_of_value? value
      exact right
    · exact right
    · cases left
  · cases right

theorem nonneg_sum {xs : List Binary64} (nonneg : ∀ x ∈ xs, zero.le x = true) :
    zero.le (sum xs) = true := by
  induction xs using List.reverseRecOn with
  | nil => decide
  | append_singleton xs x inductionHypothesis =>
    rw [sum_concat]
    apply nonneg_add
    · exact inductionHypothesis fun y member => nonneg y (List.mem_append_left _ member)
    · exact nonneg x (List.mem_append_right _ (List.mem_singleton_self x))

/-- A quotient by a count that is finite keeps the side of zero; the count can be infinite. -/
theorem nonneg_of_div_ofNat {a : Binary64} {n : Nat} {v : Rat} (nonneg : zero.le a = true)
    (positive : 0 < n) (quotient : (a.div (ofNat n)).value? = some v) : 0 ≤ v := by
  have counts : (ofNat 1).le (ofNat n) = true :=
    ofRat_le_ofRat false false (by exact_mod_cast positive)
  rcases finite_or_infinite (isNaN_right counts) with ⟨q, count⟩ | ⟨_ | _, count⟩
  · have one : 0 < q := zero_lt_one.trans_le ((le_iff_of_value? value?_one count).1 counts)
    have least := div_mono nonneg count one
    obtain ⟨s, zeros⟩ := div_eq_ofRat value?_zero count one.ne'
    rw [zeros, zero_div] at least
    exact (le_iff_of_value? (value?_ofRat s value?_zero) quotient).1 least
  · rw [count] at quotient
    cases a with
    | nan => cases quotient
    | infinite s => cases quotient
    | finite s m =>
      rw [div, value?_signedZero] at quotient
      exact (Option.some.inj quotient).le
  · rw [count] at counts
    have one := value?_one
    rw [eq_infinite_of_ge counts] at one
    cases one

section Error

/-- What the roundings of a sum can add up to: with each summand under the bound, one rounding
more enlarges the errors before it and has one of its own. -/
def sumError (count : Nat) (bound : Rat) : Rat :=
  count * (bound * ((1 + unitRoundoff) ^ count - 1) + (1 + unitRoundoff) ^ count * underflowUnit)

theorem sumError_step (count : Nat) {bound : Rat} (nonneg : 0 ≤ bound) :
    sumError count bound * (1 + unitRoundoff) + (count + 1 : Nat) * bound * unitRoundoff +
      underflowUnit ≤ sumError (count + 1) bound := by
  have unit := unitRoundoff_pos
  have underflow := underflowUnit_pos
  have growth : 1 ≤ (1 + unitRoundoff) ^ count := one_le_pow₀ (by linarith)
  have growth' : 1 ≤ (1 + unitRoundoff) ^ (count + 1) := one_le_pow₀ (by linarith)
  have more : 0 ≤ bound * (1 + unitRoundoff) * ((1 + unitRoundoff) ^ count - 1) := by
    apply mul_nonneg (by positivity)
    linarith
  have units : underflowUnit ≤ (1 + unitRoundoff) ^ (count + 1) * underflowUnit :=
    le_mul_of_one_le_left underflow.le growth'
  rw [sumError, sumError, pow_succ] at *
  push_cast
  linarith

variable {xs : List Binary64} {bound : Rat}

theorem sum_toRat_between {least greatest : Rat}
    (between : ∀ x ∈ xs, least ≤ x.toRat ∧ x.toRat ≤ greatest) :
    xs.length * least ≤ (xs.map toRat).sum ∧ (xs.map toRat).sum ≤ xs.length * greatest := by
  have above := List.card_nsmul_le_sum (xs.map toRat) least
    (List.forall_mem_map.2 fun x member => (between x member).1)
  have below := List.sum_le_card_nsmul (xs.map toRat) greatest
    (List.forall_mem_map.2 fun x member => (between x member).2)
  rw [List.length_map, nsmul_eq_mul] at above below
  exact ⟨above, below⟩

theorem abs_sum_toRat_le (bounded : ∀ x ∈ xs, |x.toRat| ≤ bound) :
    |(xs.map toRat).sum| ≤ xs.length * bound := by
  obtain ⟨above, below⟩ := sum_toRat_between fun x member => abs_le.1 (bounded x member)
  rw [mul_neg] at above
  exact abs_le.2 ⟨above, below⟩

/-- A finite sum is close to the exact one. -/
theorem abs_sum_sub_le (finite : (sum xs).isFinite = true) (bounded : ∀ x ∈ xs, |x.toRat| ≤ bound) :
    |(sum xs).toRat - (xs.map toRat).sum| ≤ sumError xs.length bound := by
  induction xs using List.reverseRecOn with
  | nil =>
    have zero : (sum []).toRat = 0 := (toRat_of_value? value?_negativeZero).2
    simp [zero, sumError]
  | append_singleton xs x inductionHypothesis =>
    have size := abs_sum_toRat_le bounded
    rw [sum_concat] at finite ⊢
    have before := inductionHypothesis (isFinite_of_add finite).1 fun y member =>
      bounded y (List.mem_append_left _ member)
    have last := bounded x (List.mem_append_right _ (List.mem_singleton_self x))
    have offset : (sum xs).toRat + x.toRat - ((xs ++ [x]).map toRat).sum =
        (sum xs).toRat - (xs.map toRat).sum := by
      rw [List.map_append, List.sum_append, List.map_singleton, List.sum_singleton]
      ring
    rw [← offset] at before
    rw [List.length_append, List.length_singleton] at size ⊢
    exact ((rounded_add finite).error_of_near before size).trans
      (sumError_step _ ((abs_nonneg _).trans last))

end Error

end BenchStats.Binary64
