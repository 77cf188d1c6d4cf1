import BenchStats.Proofs.Series.Quantile
import BenchStats.Proofs.Series.Variance

/-!
# The mean between the extremes

The mean is a rounded sum divided by a count, so it lies between the means of as many copies of the
least and of the greatest value.  It lies between the two values themselves as far as their copies
add up exactly.  Otherwise it can be outside by the errors of the roundings, and a sum out of range
has an infinite mean.
-/

namespace BenchStats

namespace Series

open Binary64

section Bounds

variable {values : List Binary64} {c : Rat}

theorem value?_mean_of_repeatable (nonempty : values ≠ [])
    (equal : ∀ value ∈ values, value.value? = some c) (repeatable : Repeatable values.length c) :
    (mean values).value? = some c :=
  value?_mean_of_total nonempty repeatable.few equal (value?_sum_of_repeatable equal repeatable)

/-- The mean is monotone in the values. -/
theorem mean_mono {others : List Binary64} (nonempty : values ≠ []) (few : values.length ≤ 2 ^ 53)
    (each : List.Forall₂ (fun x y => x.le y = true) values others)
    (finite : ∀ value ∈ values, value.isFinite = true)
    (finite' : ∀ value ∈ others, value.isFinite = true) :
    (mean values).le (mean others) = true := by
  have positive : 0 < (values.length : Rat) := by
    exact_mod_cast List.length_pos_of_ne_nil nonempty
  rw [mean, mean, ← each.length_eq]
  exact div_mono (sum_mono each finite finite') (value?_ofNat few) positive

section Copies

variable (nonempty : values ≠ []) (few : values.length ≤ 2 ^ 53)
  (finite : ∀ value ∈ values, value.isFinite = true) {bound : Binary64}
  (boundFinite : bound.isFinite = true)

include nonempty few finite boundFinite

theorem copies_le_mean (below : ∀ value ∈ values, bound.le value = true) :
    (mean (List.replicate values.length bound)).le (mean values) = true := by
  have each : List.Forall₂ (fun x y => x.le y = true) (values.map fun _ => bound) values := by
    rwa [List.forall₂_map_left_iff, List.forall₂_same]
  rw [← List.map_const']
  refine mean_mono (mt List.map_eq_nil_iff.1 nonempty) ?_ each ?_ finite
  · rwa [List.length_map]
  · exact List.forall_mem_map.2 fun _ _ => boundFinite

theorem mean_le_copies (above : ∀ value ∈ values, value.le bound = true) :
    (mean values).le (mean (List.replicate values.length bound)) = true := by
  have each : List.Forall₂ (fun x y => x.le y = true) values (values.map fun _ => bound) := by
    rwa [List.forall₂_map_right_iff, List.forall₂_same]
  rw [← List.map_const']
  exact mean_mono nonempty few each finite (List.forall_mem_map.2 fun _ _ => boundFinite)

end Copies

section Repeatable

variable (nonempty : values ≠ []) (finite : ∀ value ∈ values, value.isFinite = true)
  {bound : Binary64} (value : bound.value? = some c) (repeatable : Repeatable values.length c)

include nonempty value repeatable

theorem value?_mean_copies : (mean (List.replicate values.length bound)).value? = some c := by
  have copies : List.replicate values.length bound ≠ [] := by
    rw [ne_eq, List.replicate_eq_nil_iff, List.length_eq_zero_iff]
    exact nonempty
  apply value?_mean_of_repeatable copies
  · intro copy member
    rwa [List.eq_of_mem_replicate member]
  · rwa [List.length_replicate]

include finite

theorem le_mean (below : ∀ value ∈ values, bound.le value = true) :
    bound.le (mean values) = true := by
  have copies := value?_mean_copies nonempty value repeatable
  exact le_trans ((le_iff_of_value? value copies).2 le_rfl)
    (copies_le_mean nonempty repeatable.few finite (toRat_of_value? value).1 below)

theorem mean_le (above : ∀ value ∈ values, value.le bound = true) :
    (mean values).le bound = true := by
  have copies := value?_mean_copies nonempty value repeatable
  exact le_trans (mean_le_copies nonempty repeatable.few finite (toRat_of_value? value).1 above)
    ((le_iff_of_value? copies value).2 le_rfl)

end Repeatable

theorem isFinite_mean (nonempty : values ≠ []) (few : values.length ≤ 2 ^ 53)
    (finite : ∀ value ∈ values, value.isFinite = true) {power : Nat} (inRange : power ≤ 970)
    (small : ∀ value ∈ values, |value.toRat| ≤ 2 ^ power) : (mean values).isFinite = true := by
  have top := value?_ofRat_two_pow inRange
  have bottom := value?_neg top
  have copies := repeatable_two_pow few inRange
  have above : (mean values).le (.ofRat false (2 ^ power)) = true := by
    apply mean_le nonempty finite top copies
    intro value member
    exact (le_iff_of_value? (value?_eq_toRat (finite value member)) top).2
      (abs_le.1 (small value member)).2
  have below : (ofRat false (2 ^ power)).neg.le (mean values) = true := by
    apply le_mean nonempty finite bottom copies.neg
    intro value member
    exact (le_iff_of_value? bottom (value?_eq_toRat (finite value member))).2
      (abs_le.1 (small value member)).1
  obtain ⟨v, value, -⟩ := exists_value?_of_between bottom top below above
  exact (toRat_of_value? value).1

section Error

/-- What the roundings of a mean of values under a bound can add up to: those of the sum, and that
of the quotient. -/
def meanError (count : Nat) (bound : Rat) : Rat :=
  bound * ((1 + unitRoundoff) ^ (count + 1) - 1) +
    ((1 + unitRoundoff) ^ (count + 1) + 1) * underflowUnit

theorem meanError_eq {count : Nat} (nonzero : (count : Rat) ≠ 0) (bound : Rat) :
    meanError count bound = sumError count bound / count * (1 + unitRoundoff) +
      bound * unitRoundoff + underflowUnit := by
  rw [meanError, sumError, mul_div_cancel_left₀ _ nonzero, pow_succ]
  ring

/-- A finite mean is close to the exact one. -/
theorem abs_mean_sub_le {bound : Rat} (nonempty : values ≠ []) (few : values.length ≤ 2 ^ 53)
    (finite : (mean values).isFinite = true) (bounded : ∀ value ∈ values, |value.toRat| ≤ bound) :
    |(mean values).toRat - (values.map toRat).sum / values.length| ≤
      meanError values.length bound := by
  have positive : 0 < (values.length : Rat) := by
    exact_mod_cast List.length_pos_of_ne_nil nonempty
  have total : (sum values).isFinite = true := isFinite_of_div finite
  obtain ⟨s, quotient⟩ := div_eq_ofRat (value?_eq_toRat total) (value?_ofNat few) positive.ne'
  have rounded := value?_eq_toRat finite
  rw [mean, quotient] at rounded
  have size : |(values.map toRat).sum / values.length| ≤ bound := by
    rw [abs_div, abs_of_pos positive, div_le_iff₀' positive]
    exact abs_sum_toRat_le bounded
  have apart : |(sum values).toRat / values.length - (values.map toRat).sum / values.length| ≤
      sumError values.length bound / values.length := by
    rw [← sub_div, abs_div, abs_of_pos positive]
    exact div_le_div_of_nonneg_right (abs_sum_sub_le total bounded) positive.le
  rw [mean, quotient, meanError_eq positive.ne']
  exact (rounded_of_ofRat rounded).error_of_near apart size

theorem exact_mean_between {least greatest : Rat} (nonempty : values ≠ [])
    (between : ∀ value ∈ values, least ≤ value.toRat ∧ value.toRat ≤ greatest) :
    least ≤ (values.map toRat).sum / values.length ∧
      (values.map toRat).sum / values.length ≤ greatest := by
  have positive : 0 < (values.length : Rat) := by
    exact_mod_cast List.length_pos_of_ne_nil nonempty
  obtain ⟨above, below⟩ := sum_toRat_between between
  exact ⟨(le_div_iff₀' positive).2 above, (div_le_iff₀' positive).2 below⟩

end Error

/-- The values of a series that does not vary have no deviation from their number. -/
theorem value?_deviation_of_equal (two : 2 ≤ values.length) (few : values.length ≤ 2 ^ 53)
    (equal : ∀ value ∈ values, value.value? = some c) {mean : Binary64}
    (centre : mean.value? = some c) : (deviation values mean).value? = some 0 := by
  have squares : ∀ square ∈ values.map fun value => (value.sub mean).mul (value.sub mean),
      square.value? = some 0 := by
    refine List.forall_mem_map.2 fun value member => ?_
    obtain ⟨s, difference⟩ := sub_eq_ofRat (equal value member) centre
    have none : (value.sub mean).value? = some 0 := by
      rw [difference, sub_self]
      exact value?_ofRat s value?_zero
    obtain ⟨t, square⟩ := mul_eq_ofRat none none
    rw [square, mul_zero]
    exact value?_ofRat t value?_zero
  have total : (sum (values.map fun value => (value.sub mean).mul (value.sub mean))).value? =
      some 0 := by
    have zeros : Repeatable values.length 0 :=
      ⟨few, fun k _ => ⟨zero, by rw [mul_zero, value?_zero]⟩⟩
    rw [← List.length_map fun value => (value.sub mean).mul (value.sub mean)] at zeros
    have sums := value?_sum_of_repeatable squares zeros
    rwa [mul_zero] at sums
  have count : ((values.length - 1 : Nat) : Rat) ≠ 0 := by
    exact_mod_cast (Nat.sub_pos_of_lt two).ne'
  obtain ⟨s, quotient⟩ := div_eq_ofRat total (value?_ofNat (by omega)) count
  rw [deviation, if_neg (by omega)]
  dsimp only
  rw [quotient, zero_div]
  exact value?_sqrt_of_zero (value?_ofRat s value?_zero)

end Bounds

end Series

namespace Summary

open Binary64 Series

/-- Where the mean of a summary lies: between the means of copies of the extremes, and so between
the extremes that add up exactly, and otherwise as close as the roundings leave it. -/
structure MeanBetween (count : Nat) (s : Summary) : Prop where
  copiesBelow : (Series.mean (List.replicate count s.least)).le s.mean = true
  copiesAbove : s.mean.le (Series.mean (List.replicate count s.greatest)) = true
  leastBelow : Repeatable count s.least.toRat → s.least.le s.mean = true
  greatestAbove : Repeatable count s.greatest.toRat → s.mean.le s.greatest = true
  finite : |s.least.toRat| ≤ 2 ^ 970 → |s.greatest.toRat| ≤ 2 ^ 970 → s.mean.isFinite = true
  near : s.mean.isFinite = true →
    s.least.toRat - meanError count (max |s.least.toRat| |s.greatest.toRat|) ≤ s.mean.toRat ∧
      s.mean.toRat ≤ s.greatest.toRat + meanError count (max |s.least.toRat| |s.greatest.toRat|)

/-- A summary of copies of one number. -/
structure Steady (count : Nat) (c : Rat) (s : Summary) : Prop where
  quantiles : ∀ quantile ∈ [s.least, s.lowerQuartile, s.median, s.middleQuartile,
    s.upperQuartile, s.greatest], quantile.value? = some c
  mean : Repeatable count c → s.mean.value? = some c
  deviation : Repeatable count c → 2 ≤ count → s.deviation.value? = some 0

section

variable {values : List Binary64} (nonempty : values ≠ [])
  (finite : ∀ value ∈ values, value.isFinite = true)

include finite

theorem sorted_perm_of_finite : (sorted values).Perm values := by
  apply sorted_perm_of_numbers
  intro value member
  have number := value?_eq_toRat (finite value member)
  exact isNaN_eq_false_iff.2 ⟨_, numericKey?_of_value? number⟩

include nonempty

theorem sorted_ne_nil_of_finite : sorted values ≠ [] := by
  intro empty
  exact nonempty (List.perm_nil.1 (empty ▸ (sorted_perm_of_finite finite).symm))

theorem meanBetween_ofSeries (few : values.length ≤ 2 ^ 53) :
    MeanBetween values.length (ofSeries values) := by
  have same := sorted_perm_of_finite finite
  have some := sorted_ne_nil_of_finite nonempty finite
  obtain ⟨leastMember, greatestMember, between⟩ := extremes_ofSeries some
  have below := fun value member => (between value member).1
  have above := fun value member => (between value member).2
  have sortedFinite : ∀ value ∈ sorted values, value.isFinite = true :=
    fun value member => finite value (same.mem_iff.1 member)
  have leastFinite := sortedFinite _ leastMember
  have greatestFinite := sortedFinite _ greatestMember
  have least := value?_eq_toRat leastFinite
  have greatest := value?_eq_toRat greatestFinite
  have inside : ∀ value ∈ sorted values, (ofSeries values).least.toRat ≤ value.toRat ∧
      value.toRat ≤ (ofSeries values).greatest.toRat := by
    intro value member
    have middle := value?_eq_toRat (sortedFinite value member)
    exact ⟨(le_iff_of_value? least middle).1 (below value member),
      (le_iff_of_value? middle greatest).1 (above value member)⟩
  have bounded : ∀ value ∈ sorted values, |value.toRat| ≤
      max |(ofSeries values).least.toRat| |(ofSeries values).greatest.toRat| :=
    fun value member => abs_le_max_abs_abs (inside value member).1 (inside value member).2
  obtain ⟨mean, -⟩ := mean_ofSeries_of_ne_nil some
  rw [← same.length_eq] at few ⊢
  constructor
  case copiesBelow =>
    rw [mean]
    exact copies_le_mean some few sortedFinite leastFinite below
  case copiesAbove =>
    rw [mean]
    exact mean_le_copies some few sortedFinite greatestFinite above
  case leastBelow =>
    rw [mean]
    intro copies
    exact le_mean some sortedFinite least copies below
  case greatestAbove =>
    rw [mean]
    intro copies
    exact mean_le some sortedFinite greatest copies above
  case finite =>
    rw [mean]
    intro leastSmall greatestSmall
    exact isFinite_mean some few sortedFinite le_rfl fun value member =>
      (bounded value member).trans (max_le leastSmall greatestSmall)
  case near =>
    rw [mean]
    intro meanFinite
    have error := abs_le.1 (abs_mean_sub_le some few meanFinite bounded)
    have exact := exact_mean_between some inside
    constructor
    · linarith
    · linarith

theorem steady_ofSeries {c : Rat} (equal : ∀ value ∈ values, value.value? = some c) :
    Steady values.length c (ofSeries values) := by
  have same := sorted_perm_of_finite finite
  have some := sorted_ne_nil_of_finite nonempty finite
  have sortedEqual : ∀ value ∈ sorted values, value.value? = .some c :=
    fun value member => equal value (same.mem_iff.1 member)
  obtain ⟨leastMember, greatestMember, -⟩ := extremes_ofSeries some
  have leastValue := sortedEqual _ leastMember
  have greatestValue := sortedEqual _ greatestMember
  obtain ⟨least, lower, median, middle, upper, greatest⟩ := ofSeries_of_ne_nil some
  obtain ⟨mean, deviation⟩ := mean_ofSeries_of_ne_nil some
  have between (fraction : Binary64) : (quantile (sorted values) fraction).value? = .some c := by
    obtain ⟨above, below⟩ := (sorted_ascending values).quantile_between some fraction
    rw [← least] at above
    rw [← greatest] at below
    obtain ⟨v, value, up, down⟩ := exists_value?_of_between leastValue greatestValue above below
    rwa [le_antisymm down up] at value
  have centre (copies : Repeatable values.length c) :
      (Series.mean (sorted values)).value? = .some c := by
    rw [← same.length_eq] at copies
    exact value?_mean_of_repeatable some sortedEqual copies
  constructor
  case quantiles =>
    simp only [List.forall_mem_cons, List.not_mem_nil, middle, lower, median, upper]
    exact ⟨leastValue, between _, between _, between _, between _, greatestValue, by simp⟩
  case mean =>
    rw [mean]
    exact centre
  case deviation =>
    rw [deviation]
    intro copies two
    rw [← same.length_eq] at two
    have few : (sorted values).length ≤ 2 ^ 53 := same.length_eq.trans_le copies.few
    exact value?_deviation_of_equal two few sortedEqual (centre copies)

end

/-- The mean of finite numbers lies between the means of copies of the least and the greatest.  It
is between the two themselves where their copies add up exactly, finite where they are not too
large, and never further outside than the errors of its roundings.  All quantiles of copies of one
number are that number, and so is the mean where the copies add up exactly; then there is no
deviation. -/
theorem mean_between_extremes (values : List Binary64) (nonempty : values ≠ [])
    (finite : ∀ value ∈ values, value.isFinite = true) :
    (values.length ≤ 2 ^ 53 → MeanBetween values.length (ofSeries values)) ∧
      ∀ c, (∀ value ∈ values, value.value? = some c) →
        Steady values.length c (ofSeries values) :=
  ⟨meanBetween_ofSeries nonempty finite, fun _ => steady_ofSeries nonempty finite⟩

theorem mean_between_extremes_whole :
    (ofSeries [.ofNat 1, .ofNat 2, .ofNat 4]).least.le
        (ofSeries [.ofNat 1, .ofNat 2, .ofNat 4]).mean = true ∧
      (ofSeries [.ofNat 1, .ofNat 2, .ofNat 4]).mean.le
        (ofSeries [.ofNat 1, .ofNat 2, .ofNat 4]).greatest = true ∧
      (ofSeries [.ofNat 8, .ofNat 8, .ofNat 8]).mean.value? = some (2 ^ 3) ∧
      (ofSeries [.ofNat 8, .ofNat 8, .ofNat 8]).deviation.value? = some 0 := by
  have ascending : Ascending [.ofNat 1, .ofNat 2, .ofNat 4] :=
    ⟨by decide +kernel, by decide +kernel⟩
  obtain ⟨least, -, -, -, -, greatest⟩ :=
    ofSeries_of_ne_nil (ascending.sorted_eq ▸ List.cons_ne_nil _ _)
  rw [ascending.sorted_eq] at least greatest
  have one : Repeatable 3 (2 ^ 0) := repeatable_two_pow (by decide) (by decide)
  have four : Repeatable 3 (2 ^ 2) := repeatable_two_pow (by decide) (by decide)
  have eight : Repeatable 3 (2 ^ 3) := repeatable_two_pow (by decide) (by decide)
  have held := (mean_between_extremes [.ofNat 1, .ofNat 2, .ofNat 4] (List.cons_ne_nil _ _)
    (by decide +kernel)).1 (by decide)
  have steady := (mean_between_extremes [.ofNat 8, .ofNat 8, .ofNat 8] (List.cons_ne_nil _ _)
    (by decide +kernel)).2 (2 ^ 3) (by decide +kernel)
  refine ⟨held.leastBelow ?_, held.greatestAbove ?_, steady.mean eight,
    steady.deviation eight (by decide)⟩
  · have value : (ofSeries [.ofNat 1, .ofNat 2, .ofNat 4]).least.toRat = 2 ^ 0 := by
      rw [least]
      decide +kernel
    rwa [value]
  · have value : (ofSeries [.ofNat 1, .ofNat 2, .ofNat 4]).greatest.toRat = 2 ^ 2 := by
      rw [greatest]
      decide +kernel
    rwa [value]

/-- Two large numbers whose sum is out of range have an infinite mean. -/
theorem not_mean_between_extremes_large :
    ¬ ∀ values : List Binary64, values ≠ [] → (∀ value ∈ values, value.isFinite = true) →
      (ofSeries values).least.le (ofSeries values).mean = true ∧
        (ofSeries values).mean.le (ofSeries values).greatest = true := by
  intro between
  have ascending : Ascending [.ofRat false (10 ^ 308), .ofRat false (10 ^ 308)] :=
    ⟨by decide +kernel, by decide +kernel⟩
  have nonempty := ascending.sorted_eq ▸ List.cons_ne_nil _ _
  obtain ⟨-, -, -, -, -, greatest⟩ := ofSeries_of_ne_nil nonempty
  obtain ⟨mean, -⟩ := mean_ofSeries_of_ne_nil nonempty
  obtain ⟨-, above⟩ := between [.ofRat false (10 ^ 308), .ofRat false (10 ^ 308)]
    (List.cons_ne_nil _ _) (by decide +kernel)
  rw [mean, greatest, ascending.sorted_eq] at above
  exact absurd above (by decide +kernel)

end Summary

end BenchStats
