import BenchStats.Proofs.Binary64.Products
import BenchStats.Series.Correlation
import Mathlib.Algebra.Order.Ring.Pow

/-!
# The range of a correlation

The moments of two series are three rounded sums of products of deviations, and by the inequality of
Cauchy and Schwarz the mixed one is under the root of the product of the others, up to what rounding
adds to one side and takes from the other.  For series that are not too long this is less than
`10 ^ -9`, unless the squares, or the product of their sums, get lost among the least numbers.
-/

namespace BenchStats.Series

open Binary64

/-- The means of both sides. -/
def centre (pairs : List (Binary64 × Binary64)) : Binary64 × Binary64 :=
  ((Binary64.sum (pairs.map Prod.fst)).div (.ofNat pairs.length),
    (Binary64.sum (pairs.map Prod.snd)).div (.ofNat pairs.length))

def deviations (centre : Binary64 × Binary64) (pairs : List (Binary64 × Binary64)) :
    List (Binary64 × Binary64) :=
  pairs.map fun p => (p.1.sub centre.1, p.2.sub centre.2)

/-- The mixed moment over the root of the product of the others. -/
def Moments.quotient (m : Moments) : Binary64 :=
  if m.first.numericEq .zero || m.second.numericEq .zero then .nan
  else m.mixed.div (m.first.mul m.second).sqrt

/-- The moments of two series around their means. -/
def centralMoments (xs ys : List (Option Binary64)) : Moments :=
  moments (centre (completePairs xs ys)) (completePairs xs ys)

theorem correlation_eq (xs ys : List (Option Binary64)) :
    correlation xs ys =
      if (completePairs xs ys).length < 2 then .nan else (centralMoments xs ys).quotient := rfl

/-- The moments of given deviations, each of them a sum of its own. -/
def Moments.ofDeviations (ds : List (Binary64 × Binary64)) : Moments :=
  ⟨sumProducts ds, sumProducts (squares Prod.fst ds), sumProducts (squares Prod.snd ds)⟩

theorem moments_eq (centre : Binary64 × Binary64) (pairs : List (Binary64 × Binary64)) :
    moments centre pairs = .ofDeviations (deviations centre pairs) := by
  induction pairs using List.reverseRecOn with
  | nil => rfl
  | append_singleton pairs p inductionHypothesis =>
    have step : moments centre (pairs ++ [p]) =
        (moments centre pairs).add (p.1.sub centre.1) (p.2.sub centre.2) := by
      rw [moments, List.foldl_append]
      rfl
    rw [step, inductionHypothesis]
    simp only [Moments.add, Moments.ofDeviations, deviations, squares, List.map_append,
      List.map_cons, List.map_nil, sumProducts_concat]

/-- Neither the sums of squares nor their product get lost among the least numbers. -/
structure Moments.WellScaled (m : Moments) : Prop where
  first : (ofRat false (2 ^ (-960 : Int))).le m.first = true
  second : (ofRat false (2 ^ (-960 : Int))).le m.second = true
  product : (ofRat false (2 ^ (-1022 : Int))).le (m.first.mul m.second) = true

/-- Not-a-number, or no further from zero than a bound. -/
def Within (bound : Rat) (r : Binary64) : Prop :=
  r.isNaN = true ∨ ∃ v, r.value? = some v ∧ |v| ≤ bound

/-- How many times the root rounding can make the mixed moment of `n` pairs. -/
def excess (n : Nat) : Rat := (1 + 9 * unitRoundoff) / (1 - (n + 1) * unitRoundoff) ^ 2

theorem loss_pos {n : Nat} (few : n ≤ 2 ^ 52) : 0 < 1 - ((n : Rat) + 1) * unitRoundoff := by
  have longest : (n : Rat) + 1 ≤ 2 ^ 52 + 1 := by exact_mod_cast Nat.succ_le_succ few
  have lost := mul_le_mul_of_nonneg_right longest unitRoundoff_pos.le
  have most : (2 ^ 52 + 1) * unitRoundoff < 1 := by decide +kernel
  linarith

theorem loss_le_pow (n : Nat) :
    1 - ((n : Rat) + 1) * unitRoundoff ≤ (1 - unitRoundoff) ^ (n + 1) := by
  have above : -1 ≤ 1 - unitRoundoff := by linarith [unitRoundoff_lt_one]
  have bernoulli := one_add_mul_sub_le_pow above (n + 1)
  push_cast at bernoulli
  linarith

theorem excess_mono {m n : Nat} (le : m ≤ n) (few : n ≤ 2 ^ 52) : excess m ≤ excess n := by
  have longer : (m : Rat) + 1 ≤ n + 1 := by exact_mod_cast Nat.succ_le_succ le
  have lost := mul_le_mul_of_nonneg_right longer unitRoundoff_pos.le
  have least := loss_pos few
  have unit := unitRoundoff_pos
  apply div_le_div_of_nonneg_left (by positivity) (by positivity)
  apply pow_le_pow_left₀ least.le
  linarith

theorem excess_le {n : Nat} (few : n ≤ 2 ^ 52) : excess n ≤ 2 ^ 3 :=
  (excess_mono few le_rfl).trans (by decide +kernel)

/-- What gets lost among the least numbers, over all pairs, is less than one rounding of a value
that is not that small. -/
theorem underflows_le {n : Nat} {x : Rat} (few : n ≤ 2 ^ 52)
    (large : (2 : Rat) ^ (-960 : Int) ≤ x) : 3 * n * underflowUnit ≤ unitRoundoff * x := by
  calc 3 * n * underflowUnit
    _ ≤ 3 * 2 ^ 52 * underflowUnit := by
      apply mul_le_mul_of_nonneg_right _ underflowUnit_pos.le
      exact_mod_cast Nat.mul_le_mul_left 3 few
    _ ≤ unitRoundoff * (2 : Rat) ^ (-960 : Int) := by decide +kernel
    _ ≤ unitRoundoff * x := mul_le_mul_of_nonneg_left large unitRoundoff_pos.le

theorem productSize_squares_le (side : Binary64 × Binary64 → Binary64)
    {ds : List (Binary64 × Binary64)} (few : ds.length ≤ 2 ^ 52)
    (finite : (sumProducts (squares side ds)).isFinite = true)
    (large : (2 : Rat) ^ (-960 : Int) ≤ (sumProducts (squares side ds)).toRat) :
    (1 - unitRoundoff) ^ (ds.length + 1) * productSize (squares side ds) ≤
      (sumProducts (squares side ds)).toRat * (1 + unitRoundoff) := by
  have nonneg : ∀ p ∈ squares side ds, 0 ≤ p.1.toRat * p.2.toRat := by
    intro p member
    obtain ⟨d, -, rfl⟩ := List.mem_map.1 member
    exact mul_self_nonneg _
  have least := (keeps_sumProducts finite nonneg).least
  rw [length_squares] at least
  have lost := underflows_le few large
  have underflow : 0 ≤ ds.length * underflowUnit :=
    mul_nonneg (Nat.cast_nonneg _) underflowUnit_pos.le
  linarith

/-- What is known of the values of well-scaled moments when their product is `g`. -/
structure Moments.Scaled (m : Moments) (g : Rat) : Prop where
  finiteFirst : m.first.isFinite = true
  finiteSecond : m.second.isFinite = true
  largeFirst : (2 : Rat) ^ (-960 : Int) ≤ m.first.toRat
  largeSecond : (2 : Rat) ^ (-960 : Int) ≤ m.second.toRat
  large : (2 : Rat) ^ (-1022 : Int) ≤ g
  rounded : Rounded (m.first.toRat * m.second.toRat) g

theorem Moments.WellScaled.values {m : Moments} {g : Rat} (scaled : m.WellScaled)
    (product : (m.first.mul m.second).value? = some g) : m.Scaled g := by
  have small := value?_ofRat_two_zpow (show -1074 ≤ (-960 : Int) by decide) (by decide)
  have smallest := value?_ofRat_two_zpow (show -1074 ≤ (-1022 : Int) by decide) (by decide)
  obtain ⟨finite, value⟩ := toRat_of_value? product
  obtain ⟨finiteFirst, finiteSecond⟩ := isFinite_of_mul finite
  exact {
    finiteFirst
    finiteSecond
    largeFirst := (le_iff_of_value? small (value?_eq_toRat finiteFirst)).1 scaled.first
    largeSecond := (le_iff_of_value? small (value?_eq_toRat finiteSecond)).1 scaled.second
    large := (le_iff_of_value? smallest product).1 scaled.product
    rounded := value ▸ rounded_mul finite }

theorem Moments.Scaled.product_le {m : Moments} {g : Rat} (scaled : m.Scaled g) :
    m.first.toRat * m.second.toRat * (1 - unitRoundoff) ≤ g * (1 + unitRoundoff) := by
  have nonneg : 0 ≤ m.first.toRat * m.second.toRat :=
    mul_nonneg ((two_zpow_pos _).le.trans scaled.largeFirst)
      ((two_zpow_pos _).le.trans scaled.largeSecond)
  have underflow : underflowUnit ≤ g * unitRoundoff := by
    calc underflowUnit
      _ ≤ (2 : Rat) ^ (-1022 : Int) * unitRoundoff := by decide +kernel
      _ ≤ g * unitRoundoff := mul_le_mul_of_nonneg_right scaled.large unitRoundoff_pos.le
  have low := scaled.rounded.le_value nonneg
  linarith

/-- The inequality of Cauchy and Schwarz with a product and a root that are rounded. -/
theorem Moments.Scaled.size_le_root {m : Moments} {loss size first second g d : Rat}
    (scaled : m.Scaled g) (losing : 0 < loss) (firstNonneg : 0 ≤ first)
    (secondNonneg : 0 ≤ second) (cauchySchwarz : size ^ 2 ≤ first * second)
    (firstLe : loss * first ≤ m.first.toRat * (1 + unitRoundoff))
    (secondLe : loss * second ≤ m.second.toRat * (1 + unitRoundoff)) (positive : 0 < d)
    (root : g * (1 - 5 * unitRoundoff) ≤ d ^ 2) : loss * size ≤ (1 + 8 * unitRoundoff) * d := by
  have unit := unitRoundoff_pos
  have squares : (loss * size) ^ 2 ≤
      m.first.toRat * m.second.toRat * (1 + unitRoundoff) ^ 2 := by
    calc (loss * size) ^ 2
      _ = loss ^ 2 * size ^ 2 := mul_pow _ _ 2
      _ ≤ loss ^ 2 * (first * second) := mul_le_mul_of_nonneg_left cauchySchwarz (sq_nonneg _)
      _ = (loss * first) * (loss * second) := by ring
      _ ≤ (m.first.toRat * (1 + unitRoundoff)) * (m.second.toRat * (1 + unitRoundoff)) := by
        have lower : 0 ≤ loss * first := by positivity
        exact mul_le_mul firstLe secondLe (by positivity) (lower.trans firstLe)
      _ = m.first.toRat * m.second.toRat * (1 + unitRoundoff) ^ 2 := by ring
  have rest : 0 < (1 - unitRoundoff) * (1 - 5 * unitRoundoff) := by decide +kernel
  have share : 0 ≤ (1 + unitRoundoff) ^ 2 * (1 - 5 * unitRoundoff) := by decide +kernel
  apply le_of_sq_le_sq _ (by positivity)
  apply le_of_mul_le_mul_right _ rest
  calc (loss * size) ^ 2 * ((1 - unitRoundoff) * (1 - 5 * unitRoundoff))
    _ ≤ m.first.toRat * m.second.toRat * (1 + unitRoundoff) ^ 2 *
        ((1 - unitRoundoff) * (1 - 5 * unitRoundoff)) :=
      mul_le_mul_of_nonneg_right squares rest.le
    _ = m.first.toRat * m.second.toRat * (1 - unitRoundoff) *
        ((1 + unitRoundoff) ^ 2 * (1 - 5 * unitRoundoff)) := by ring
    _ ≤ g * (1 + unitRoundoff) * ((1 + unitRoundoff) ^ 2 * (1 - 5 * unitRoundoff)) :=
      mul_le_mul_of_nonneg_right scaled.product_le share
    _ = g * (1 - 5 * unitRoundoff) * (1 + unitRoundoff) ^ 3 := by ring
    _ ≤ d ^ 2 * (1 + unitRoundoff) ^ 3 := mul_le_mul_of_nonneg_right root (by positivity)
    _ ≤ d ^ 2 * ((1 + 8 * unitRoundoff) ^ 2 * ((1 - unitRoundoff) * (1 - 5 * unitRoundoff))) := by
      apply mul_le_mul_of_nonneg_left _ (sq_nonneg d)
      decide +kernel
    _ = ((1 + 8 * unitRoundoff) * d) ^ 2 * ((1 - unitRoundoff) * (1 - 5 * unitRoundoff)) := by
      ring

/-- The bound on the mixed moment, by what the root is known to exceed. -/
theorem productBound_le_root {pairs : List (Binary64 × Binary64)} {d : Rat}
    (few : pairs.length ≤ 2 ^ 52) (large : (2 : Rat) ^ (-960 : Int) ≤ d)
    (size : (1 - unitRoundoff) ^ (pairs.length + 1) * productSize pairs ≤
      (1 + 8 * unitRoundoff) * d) : productBound pairs ≤ excess pairs.length * d := by
  have unit := unitRoundoff_pos
  have underflow := underflowUnit_pos
  have rest : 0 < 1 - unitRoundoff := sub_pos.2 unitRoundoff_lt_one
  have sizeNonneg := productSize_nonneg pairs
  have least := loss_pos few
  have gone : (1 - unitRoundoff) ^ (pairs.length + 1) * (1 + unitRoundoff) ^ (pairs.length + 1) ≤
      1 := by
    rw [← mul_pow]
    apply pow_le_one₀ (by positivity)
    nlinarith
  have lossLe : (1 - unitRoundoff) ^ (pairs.length + 1) ≤ 1 := by
    apply pow_le_one₀ rest.le
    linarith
  rw [excess, div_mul_eq_mul_div, le_div_iff₀ (by positivity)]
  calc productBound pairs * (1 - (pairs.length + 1) * unitRoundoff) ^ 2
    _ ≤ productBound pairs * ((1 - unitRoundoff) ^ (pairs.length + 1)) ^ 2 := by
      apply mul_le_mul_of_nonneg_left _ (productBound_nonneg pairs)
      exact pow_le_pow_left₀ least.le (loss_le_pow _) 2
    _ = (1 - unitRoundoff) ^ (pairs.length + 1) * (1 + unitRoundoff) ^ (pairs.length + 1) *
        ((1 - unitRoundoff) ^ (pairs.length + 1) *
          (productSize pairs + 3 * pairs.length * underflowUnit)) := by
      rw [productBound]
      ring
    _ ≤ (1 - unitRoundoff) ^ (pairs.length + 1) *
        (productSize pairs + 3 * pairs.length * underflowUnit) :=
      mul_le_of_le_one_left (by positivity) gone
    _ = (1 - unitRoundoff) ^ (pairs.length + 1) * productSize pairs +
        (1 - unitRoundoff) ^ (pairs.length + 1) * (3 * pairs.length * underflowUnit) := by
      rw [mul_add]
    _ ≤ (1 + 8 * unitRoundoff) * d + unitRoundoff * d := by
      apply add_le_add size
      exact (mul_le_of_le_one_left (by positivity) lossLe).trans (underflows_le few large)
    _ = (1 + 9 * unitRoundoff) * d := by ring

/-- Of deviations that are neither too many nor too small the mixed moment is under the root, up to
what rounding makes of both. -/
theorem mixed_le_root {ds : List (Binary64 × Binary64)} {m : Moments} {g : Rat}
    (few : ds.length ≤ 2 ^ 52) (sums : m = .ofDeviations ds) (scaled : m.Scaled g)
    (product : (m.first.mul m.second).value? = some g) :
    ∃ d, (m.first.mul m.second).sqrt.value? = some d ∧ 0 < d ∧ m.mixed.isFinite = true ∧
      |m.mixed.toRat| ≤ excess ds.length * d := by
  obtain ⟨d, root, positive, bounded, square⟩ := exists_value?_sqrt product scaled.large
  have far : (2 : Rat) ^ (-960 : Int) ≤ d := by
    apply le_of_sq_le_sq _ positive.le
    calc ((2 : Rat) ^ (-960 : Int)) ^ 2
      _ ≤ (2 : Rat) ^ (-1022 : Int) * (1 - 5 * unitRoundoff) := by decide +kernel
      _ ≤ g * (1 - 5 * unitRoundoff) := by
        apply mul_le_mul_of_nonneg_right scaled.large
        decide +kernel
      _ ≤ d ^ 2 := square
  subst sums
  have firstLe := productSize_squares_le Prod.fst few scaled.finiteFirst scaled.largeFirst
  have secondLe := productSize_squares_le Prod.snd few scaled.finiteSecond scaled.largeSecond
  have losing : 0 < (1 - unitRoundoff) ^ (ds.length + 1) :=
    pow_pos (sub_pos.2 unitRoundoff_lt_one) _
  have size := scaled.size_le_root losing (productSize_nonneg _) (productSize_nonneg _)
    (sq_productSize_le ds) firstLe secondLe positive square
  have bound := productBound_le_root few far size
  have finite : ∀ p ∈ ds, p.1.isFinite = true ∧ p.2.isFinite = true := by
    intro p member
    have first := isFinite_of_sumProducts scaled.finiteFirst _ (List.mem_map_of_mem member)
    have second := isFinite_of_sumProducts scaled.finiteSecond _ (List.mem_map_of_mem member)
    exact ⟨first.1, second.1⟩
  have small : productBound ds ≤ 2 ^ 517 := by
    calc productBound ds
      _ ≤ excess ds.length * d := bound
      _ ≤ 2 ^ 3 * 2 ^ 514 := mul_le_mul (excess_le few) bounded positive.le (by decide)
      _ = 2 ^ 517 := (pow_add 2 3 514).symm
  obtain ⟨finiteMixed, mixed⟩ := under_sumProducts (by decide) finite small
  exact ⟨d, root, positive, finiteMixed, mixed.trans bound⟩

theorem within_div {x y : Binary64} {d : Rat} {n : Nat} (few : n ≤ 2 ^ 52)
    (finite : x.isFinite = true) (root : y.value? = some d) (positive : 0 < d)
    (bound : |x.toRat| ≤ excess n * d) :
    Within (excess n * (1 + unitRoundoff) + underflowUnit) (x.div y) := by
  obtain ⟨s, quotient⟩ := div_eq_ofRat (value?_eq_toRat finite) root positive.ne'
  have share : |x.toRat / d| ≤ excess n := by
    rw [abs_div, abs_of_pos positive, div_le_iff₀ positive]
    exact bound
  obtain ⟨v, value, -⟩ := exists_value?_of_abs_le s (by decide) (share.trans (excess_le few))
  refine Or.inr ⟨v, quotient ▸ value, ?_⟩
  calc |v|
    _ ≤ |x.toRat / d| * (1 + unitRoundoff) + underflowUnit := (rounded_of_ofRat value).size_le
    _ ≤ excess n * (1 + unitRoundoff) + underflowUnit := by
      apply add_le_add_left
      exact mul_le_mul_of_nonneg_right share (add_pos one_pos unitRoundoff_pos).le

theorem within_div_infinite {x : Binary64} {negative : Bool} {bound : Rat} (nonneg : 0 ≤ bound) :
    Within bound (x.div (.infinite negative)) := by
  cases x with
  | nan => exact Or.inl rfl
  | infinite s => exact Or.inl rfl
  | finite s m =>
    refine Or.inr ⟨_, rfl, ?_⟩
    rw [abs_signedValue, Magnitude.value_zero]
    exact nonneg

/-- A correlation whose moments are well scaled exceeds one only by what the number of pairs lets
rounding add. -/
theorem correlation_within_excess (xs ys : List (Option Binary64))
    (few : (completePairs xs ys).length ≤ 2 ^ 52)
    (scaled : (centralMoments xs ys).WellScaled) :
    Within (excess (completePairs xs ys).length * (1 + unitRoundoff) + underflowUnit)
      (correlation xs ys) := by
  rw [correlation_eq]
  split
  next => exact Or.inl rfl
  next =>
    unfold Moments.quotient
    split
    next => exact Or.inl rfl
    next =>
      unfold centralMoments at scaled ⊢
      generalize completePairs xs ys = pairs at few scaled ⊢
      have sums := moments_eq (centre pairs) pairs
      have length : (deviations (centre pairs) pairs).length = pairs.length := List.length_map _
      rcases finite_or_infinite (isNaN_right scaled.product) with ⟨g, product⟩ | ⟨s, infinite⟩
      · obtain ⟨d, root, positive, finite, bound⟩ :=
          mixed_le_root (length.trans_le few) sums (scaled.values product) product
        rw [length] at bound
        exact within_div few finite root positive bound
      · rw [infinite]
        cases s with
        | true =>
          have least := eq_infinite_of_ge (infinite ▸ scaled.product)
          exact absurd least (by decide +kernel)
        | false =>
          apply within_div_infinite
          have unit := unitRoundoff_pos
          have underflow := underflowUnit_pos
          unfold excess
          positivity

/-- A correlation of up to `2 ^ 22` pairs whose moments are well scaled is not-a-number or lies
between minus one and one, up to `10 ^ -9`. -/
theorem correlation_within_range (xs ys : List (Option Binary64))
    (few : (completePairs xs ys).length ≤ 2 ^ 22)
    (scaled : (centralMoments xs ys).WellScaled) :
    Within (1 + 1 / 10 ^ 9) (correlation xs ys) := by
  rcases correlation_within_excess xs ys (few.trans (by decide)) scaled with
    isNaN | ⟨v, value, bound⟩
  · exact Or.inl isNaN
  · refine Or.inr ⟨v, value, bound.trans ?_⟩
    calc excess (completePairs xs ys).length * (1 + unitRoundoff) + underflowUnit
      _ ≤ excess (2 ^ 22) * (1 + unitRoundoff) + underflowUnit := by
        apply add_le_add_left
        apply mul_le_mul_of_nonneg_right (excess_mono few (by decide))
        exact (add_pos one_pos unitRoundoff_pos).le
      _ ≤ 1 + 1 / 10 ^ 9 := by decide +kernel

/-- A series with a gap and one that falls where the other rises. -/
def rising : List (Option Binary64) := [some (.ofNat 1), none, some (.ofNat 2), some (.ofNat 4)]

def falling : List (Option Binary64) :=
  [some (.ofNat 9), some (.ofNat 5), some (.ofNat 7), some (.ofNat 1)]

theorem correlation_within_range_falling : (completePairs rising falling).length ≤ 2 ^ 22 ∧
    (centralMoments rising falling).WellScaled ∧
    Within (1 + 1 / 10 ^ 9) (correlation rising falling) := by
  have few : (completePairs rising falling).length ≤ 2 ^ 22 := by decide +kernel
  have scaled : (centralMoments rising falling).WellScaled :=
    ⟨by decide +kernel, by decide +kernel, by decide +kernel⟩
  exact ⟨few, scaled, correlation_within_range rising falling few scaled⟩

/-- Where the product of the sums of squares is rounded to zero, the correlation is infinite or
not-a-number, although neither of the sums need be zero. -/
theorem isFinite_correlation_of_product_zero (xs ys : List (Option Binary64))
    (lost : ((centralMoments xs ys).first.mul (centralMoments xs ys).second).value? = some 0) :
    (correlation xs ys).isFinite = false := by
  rw [correlation_eq]
  split
  next => rfl
  next =>
    generalize centralMoments xs ys = m at lost ⊢
    unfold Moments.quotient
    split
    next => rfl
    next =>
      obtain ⟨s, magnitude, product, value⟩ := eq_finite_of_value? lost
      have none : magnitude = .zero := by
        rcases signedValue_cases value.ge with ⟨zero, -⟩ | ⟨-, -, positive⟩
        · exact zero
        · exact absurd value positive.ne'
      rw [product, none, sqrt, if_pos rfl]
      cases m.mixed with
      | nan => rfl
      | infinite t => rfl
      | finite t n =>
        rw [div, if_pos rfl]
        split
        next => rfl
        next => rfl

/-- Two values whose deviations from their mean have squares near `10 ^ -200`. -/
def close : List (Option Binary64) := [some .zero, some (ofRat false (1 / 10 ^ 100))]

theorem not_correlation_within_range_close :
    ¬ ∀ xs ys : List (Option Binary64), (∀ x, some x ∈ xs → x.isFinite = true) →
      (∀ y, some y ∈ ys → y.isFinite = true) → Within (1 + 1 / 10 ^ 9) (correlation xs ys) := by
  intro within
  have finite : ∀ x, some x ∈ close → x.isFinite = true := by
    intro x member
    simp only [close, List.mem_cons, Option.some.injEq, List.not_mem_nil, or_false] at member
    rcases member with rfl | rfl
    · rfl
    · decide +kernel
  have infinite : correlation close close = .infinite false := by decide +kernel
  have range := within close close finite finite
  rw [infinite] at range
  rcases range with isNaN | ⟨v, value, -⟩
  · cases isNaN
  · cases value

end BenchStats.Series
