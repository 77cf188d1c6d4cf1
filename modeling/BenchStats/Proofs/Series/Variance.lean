import BenchStats.Proofs.Binary64.Sums
import BenchStats.Proofs.Series.Correlation

/-!
# Series that do not vary

On a side of the pairs that has the same number everywhere, all deviations are zero if the mean is
that number, and then there is no correlation.  The mean is rounded, though.  It stays at the number
as long as no multiple of it that comes up in the sum is rounded, and beyond the range of the format
nothing finite is left, so that there is no correlation either.
-/

namespace BenchStats

namespace Binary64

/-- A value that no rounding changes; it may still be out of range. -/
def Kept (q : Rat) : Prop := ∀ (s : Bool) (v : Rat), (ofRat s q).value? = some v → v = q

theorem sum_concat_of_equal {xs : List Binary64} {x : Binary64} {c : Rat}
    (before : (sum xs).value? = some (xs.length * c)) (last : x.value? = some c) :
    ∃ s, sum (xs ++ [x]) = ofRat s ((xs ++ [x]).length * c) := by
  have next : (xs.length : Rat) * c + c = ((xs ++ [x]).length : Nat) * c := by
    rw [List.length_append, List.length_singleton]
    push_cast
    ring
  rw [← next, sum_concat]
  exact add_eq_ofRat before last

/-- Equal numbers whose multiples are kept add up exactly, unless the sum leaves the range. -/
theorem value?_sum_of_equal {xs : List Binary64} {c : Rat} (equal : ∀ x ∈ xs, x.value? = some c)
    (multiples : ∀ k ≤ xs.length, Kept (k * c)) (finite : (sum xs).isFinite = true) :
    (sum xs).value? = some (xs.length * c) := by
  induction xs using List.reverseRecOn with
  | nil =>
    rw [List.length_nil, Nat.cast_zero, zero_mul]
    exact value?_negativeZero
  | append_singleton xs x inductionHypothesis =>
    have before : (sum xs).value? = some (xs.length * c) := by
      apply inductionHypothesis
      · intro y member
        exact equal y (List.mem_append_left _ member)
      · intro k le
        exact multiples k (le.trans (List.sublist_append_left xs [x]).length_le)
      · rw [sum_concat] at finite
        exact (isFinite_of_add finite).1
    have last : x.value? = some c := equal x (List.mem_append_right _ (List.mem_singleton_self x))
    obtain ⟨s, sum⟩ := sum_concat_of_equal before last
    have value := value?_eq_toRat finite
    rw [sum] at value ⊢
    rw [value, multiples _ le_rfl s _ value]

/-- Equal numbers can be counted, and none of their multiples is rounded. -/
structure ExactMean (count : Nat) (c : Rat) : Prop where
  few : count ≤ 2 ^ 53
  multiples : ∀ k ≤ count, Kept (k * c)

/-- Equal numbers can be counted, and all their multiples are numbers of the format. -/
structure Repeatable (count : Nat) (c : Rat) : Prop where
  few : count ≤ 2 ^ 53
  multiples : ∀ k ≤ count, ∃ x : Binary64, x.value? = some (k * c)

theorem repeatable_of_digits {count : Nat} {digits exponent : Int} (few : count ≤ 2 ^ 53)
    (small : count * digits.natAbs ≤ 2 ^ 53) (fromBelow : -1074 ≤ exponent)
    (fromAbove : exponent ≤ 970) : Repeatable count ((digits : Rat) * (2 : Rat) ^ exponent) := by
  refine ⟨few, fun k le => ?_⟩
  have digitsFew : ((k : Int) * digits).natAbs ≤ 2 ^ 53 := by
    rw [Int.natAbs_mul, Int.natAbs_natCast]
    exact (Nat.mul_le_mul_right _ le).trans small
  obtain ⟨x, value⟩ := exists_value?_of_digits digitsFew fromBelow fromAbove
  rw [Int.cast_mul, Int.cast_natCast, mul_assoc] at value
  exact ⟨x, value⟩

theorem repeatable_two_pow {count power : Nat} (few : count ≤ 2 ^ 53) (inRange : power ≤ 970) :
    Repeatable count (2 ^ power) := by
  have digits : Repeatable count (((1 : Int) : Rat) * 2 ^ (power : Int)) :=
    repeatable_of_digits few (by simpa using few) (by omega) (by omega)
  rwa [Int.cast_one, one_mul, zpow_natCast] at digits

theorem Repeatable.neg {count : Nat} {c : Rat} (repeatable : Repeatable count c) :
    Repeatable count (-c) := by
  refine ⟨repeatable.few, fun k le => ?_⟩
  obtain ⟨x, value⟩ := repeatable.multiples k le
  rw [mul_neg]
  exact ⟨x.neg, value?_neg value⟩

theorem Repeatable.of_le {count k : Nat} {c : Rat} (repeatable : Repeatable count c)
    (le : k ≤ count) : Repeatable k c :=
  ⟨le.trans repeatable.few, fun j below => repeatable.multiples j (below.trans le)⟩

theorem Repeatable.exactMean {count : Nat} {c : Rat} (repeatable : Repeatable count c) :
    ExactMean count c := by
  refine ⟨repeatable.few, fun k le s v rounded => ?_⟩
  obtain ⟨x, value⟩ := repeatable.multiples k le
  rw [value?_ofRat s value] at rounded
  exact (Option.some.inj rounded).symm

theorem exactMean_of_digits {count : Nat} {digits exponent : Int} (few : count ≤ 2 ^ 53)
    (small : count * digits.natAbs ≤ 2 ^ 53) (fromBelow : -1074 ≤ exponent)
    (fromAbove : exponent ≤ 970) : ExactMean count ((digits : Rat) * (2 : Rat) ^ exponent) :=
  (repeatable_of_digits few small fromBelow fromAbove).exactMean

/-- Where the multiples are numbers of the format, the sum does not leave the range either. -/
theorem value?_sum_of_repeatable {xs : List Binary64} {c : Rat}
    (equal : ∀ x ∈ xs, x.value? = some c) (repeatable : Repeatable xs.length c) :
    (sum xs).value? = some (xs.length * c) := by
  induction xs using List.reverseRecOn with
  | nil =>
    rw [List.length_nil, Nat.cast_zero, zero_mul]
    exact value?_negativeZero
  | append_singleton xs x inductionHypothesis =>
    have before : (sum xs).value? = some (xs.length * c) := by
      apply inductionHypothesis
      · intro y member
        exact equal y (List.mem_append_left _ member)
      · exact repeatable.of_le (List.sublist_append_left xs [x]).length_le
    have last : x.value? = some c := equal x (List.mem_append_right _ (List.mem_singleton_self x))
    obtain ⟨s, sum⟩ := sum_concat_of_equal before last
    obtain ⟨y, value⟩ := repeatable.multiples _ le_rfl
    rw [sum]
    exact value?_ofRat s value

theorem value?_mean_of_total {xs : List Binary64} {c : Rat} (nonempty : xs ≠ [])
    (few : xs.length ≤ 2 ^ 53) (equal : ∀ x ∈ xs, x.value? = some c)
    (total : (sum xs).value? = some (xs.length * c)) :
    ((sum xs).div (.ofNat xs.length)).value? = some c := by
  have count : (xs.length : Rat) ≠ 0 := by exact_mod_cast List.length_pos_iff.2 nonempty |>.ne'
  obtain ⟨s, mean⟩ := div_eq_ofRat total (value?_ofNat few) count
  obtain ⟨x, member⟩ := List.exists_mem_of_ne_nil xs nonempty
  rw [mean, mul_div_cancel_left₀ c count]
  exact value?_ofRat s (equal x member)

theorem value?_mean_of_equal {xs : List Binary64} {c : Rat} (nonempty : xs ≠ [])
    (equal : ∀ x ∈ xs, x.value? = some c) (exact : ExactMean xs.length c)
    (finite : ((sum xs).div (.ofNat xs.length)).isFinite = true) :
    ((sum xs).div (.ofNat xs.length)).value? = some c :=
  value?_mean_of_total nonempty exact.few equal
    (value?_sum_of_equal equal exact.multiples (isFinite_of_div finite))

theorem value?_sumProducts_of_zero {pairs : List (Binary64 × Binary64)}
    (zero : ∀ p ∈ pairs, p.1.value? = some 0 ∧ p.2.value? = some 0) :
    (sumProducts pairs).value? = some 0 := by
  induction pairs using List.reverseRecOn with
  | nil => exact value?_zero
  | append_singleton pairs p inductionHypothesis =>
    have before := inductionHypothesis fun q member => zero q (List.mem_append_left _ member)
    obtain ⟨left, right⟩ := zero p (List.mem_append_right _ (List.mem_singleton_self p))
    obtain ⟨s, product⟩ := mul_eq_ofRat left right
    have term : (p.1.mul p.2).value? = some 0 := by
      rw [product, mul_zero]
      exact value?_ofRat s value?_zero
    obtain ⟨t, sum⟩ := add_eq_ofRat before term
    rw [sumProducts_concat, sum, add_zero]
    exact value?_ofRat t value?_zero

end Binary64

namespace Series

open Binary64

/-- All pairs have the same number on a side. -/
def Constant (side : Binary64 × Binary64 → Binary64) (pairs : List (Binary64 × Binary64))
    (c : Rat) : Prop := ∀ p ∈ pairs, (side p).value? = some c

theorem Moments.quotient_of_not_isFinite {m : Moments} (mixed : m.mixed.isFinite = false)
    (square : m.first.isFinite = false ∨ m.second.isFinite = false) : m.quotient = .nan := by
  have root : (m.first.mul m.second).sqrt.isFinite = false := by
    refine Bool.eq_false_iff.2 fun finite => ?_
    obtain ⟨first, second⟩ := isFinite_of_mul (isFinite_of_sqrt finite)
    rcases square with lost | lost
    · exact Bool.eq_false_iff.1 lost first
    · exact Bool.eq_false_iff.1 lost second
  unfold Moments.quotient
  split
  next => rfl
  next => exact div_eq_nan mixed root

theorem Moments.quotient_of_zero {m : Moments}
    (zero : m.first.value? = some 0 ∨ m.second.value? = some 0) : m.quotient = .nan := by
  unfold Moments.quotient
  rw [if_pos]
  rw [Bool.or_eq_true]
  exact zero.imp (fun first => (numericEq_iff_of_value? first value?_zero).2 rfl)
    fun second => (numericEq_iff_of_value? second value?_zero).2 rfl

section

variable {side : Binary64 × Binary64 → Binary64} (isSide : side = Prod.fst ∨ side = Prod.snd)

include isSide

theorem side_centre (pairs : List (Binary64 × Binary64)) :
    side (centre pairs) = (Binary64.sum (pairs.map side)).div (.ofNat (pairs.map side).length) := by
  rw [List.length_map]
  rcases isSide with rfl | rfl <;> rfl

theorem side_deviation (p centre : Binary64 × Binary64) :
    side (p.1.sub centre.1, p.2.sub centre.2) = (side p).sub (side centre) := by
  rcases isSide with rfl | rfl <;> rfl

theorem quotient_of_squares {ds : List (Binary64 × Binary64)}
    (sums : (sumProducts (squares side ds)).value? = some 0 ∨
      (sumProducts ds).isFinite = false ∧ (sumProducts (squares side ds)).isFinite = false) :
    (Moments.ofDeviations ds).quotient = .nan := by
  rcases sums with zero | ⟨mixed, lost⟩
  · apply Moments.quotient_of_zero
    rcases isSide with rfl | rfl
    · exact Or.inl zero
    · exact Or.inr zero
  · apply Moments.quotient_of_not_isFinite mixed
    rcases isSide with rfl | rfl
    · exact Or.inl lost
    · exact Or.inr lost

theorem not_isFinite_of_deviation {ds : List (Binary64 × Binary64)} {d : Binary64 × Binary64}
    (member : d ∈ ds) (lost : (side d).isFinite = false) :
    (sumProducts ds).isFinite = false ∧ (sumProducts (squares side ds)).isFinite = false := by
  rw [Bool.eq_false_iff] at lost
  refine ⟨Bool.eq_false_iff.2 fun finite => ?_, Bool.eq_false_iff.2 fun finite => ?_⟩
  · obtain ⟨first, second⟩ := isFinite_of_sumProducts finite d member
    rcases isSide with rfl | rfl
    · exact lost first
    · exact lost second
  · exact lost (isFinite_of_sumProducts finite _ (List.mem_map_of_mem member)).1

/-- A side that does not vary leaves no correlation, unless rounding takes its mean away from its
value. -/
theorem quotient_of_constant {pairs : List (Binary64 × Binary64)} {c : Rat} (nonempty : pairs ≠ [])
    (constant : Constant side pairs c) :
    (moments (centre pairs) pairs).quotient = .nan ∨
      ∃ m, (side (centre pairs)).value? = some m ∧ m ≠ c := by
  rw [moments_eq]
  cases finite : (side (centre pairs)).isFinite with
  | false =>
    obtain ⟨p, member⟩ := List.exists_mem_of_ne_nil pairs nonempty
    refine Or.inl (quotient_of_squares isSide (Or.inr ?_))
    refine not_isFinite_of_deviation isSide (List.mem_map_of_mem member) ?_
    rw [side_deviation isSide]
    refine Bool.eq_false_iff.2 fun difference => ?_
    have mean := (isFinite_of_add difference).2
    rw [isFinite_neg, finite] at mean
    cases mean
  | true =>
    by_cases same : (side (centre pairs)).toRat = c
    · refine Or.inl (quotient_of_squares isSide (Or.inl (value?_sumProducts_of_zero ?_)))
      intro square member
      obtain ⟨d, inDeviations, rfl⟩ := List.mem_map.1 member
      obtain ⟨p, inPairs, rfl⟩ := List.mem_map.1 inDeviations
      have mean := value?_eq_toRat finite
      rw [same] at mean
      obtain ⟨s, difference⟩ := sub_eq_ofRat (constant p inPairs) mean
      have zero : (side (p.1.sub (centre pairs).1, p.2.sub (centre pairs).2)).value? = some 0 := by
        rw [side_deviation isSide, difference, sub_self]
        exact value?_ofRat s value?_zero
      exact ⟨zero, zero⟩
    · exact Or.inr ⟨_, value?_eq_toRat finite, same⟩

/-- There is no correlation with a side that does not vary, unless its mean is rounded to another
number, which takes a multiple that is rounded. -/
theorem correlation_of_constant {xs ys : List (Option Binary64)} {c : Rat}
    (constant : Constant side (completePairs xs ys) c) :
    correlation xs ys = .nan ∨ ¬ ExactMean (completePairs xs ys).length c ∧
      ∃ m, (side (centre (completePairs xs ys))).value? = some m ∧ m ≠ c := by
  rw [correlation_eq]
  split
  next => exact Or.inl rfl
  next enough =>
    unfold centralMoments
    generalize completePairs xs ys = pairs at constant enough ⊢
    have nonempty : pairs ≠ [] := by
      rintro rfl
      exact enough (by decide)
    refine (quotient_of_constant isSide nonempty constant).imp_right fun ⟨m, mean, apart⟩ => ?_
    refine ⟨fun exact => apart ?_, m, mean, apart⟩
    have equal : ∀ x ∈ pairs.map side, x.value? = some c := by
      intro x member
      obtain ⟨p, inPairs, rfl⟩ := List.mem_map.1 member
      exact constant p inPairs
    rw [side_centre isSide] at mean
    rw [← List.length_map (f := side)] at exact
    have exactly := value?_mean_of_equal (mt List.map_eq_nil_iff.1 nonempty) equal exact
      (toRat_of_value? mean).1
    exact Option.some.inj (mean.symm.trans exactly)

end

end Series

end BenchStats
