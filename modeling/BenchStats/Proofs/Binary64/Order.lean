import BenchStats.Proofs.Binary64.Representable

/-!
# Rounding keeps the order

A greater value is never rounded to a lesser number, and a finite number has the place that its
value rounds to.  So the numeric order of finite numbers is that of their values, and a bound on an
exact result holds of the rounded one.
-/

namespace BenchStats

theorem floor_le_roundHalfEven (q : Rat) : q.floor ≤ roundHalfEven q := by
  unfold roundHalfEven
  dsimp only
  split
  next => exact le_rfl
  next =>
    split
    next => omega
    next => omega

theorem roundHalfEven_le_floor_add_one (q : Rat) : roundHalfEven q ≤ q.floor + 1 := by
  unfold roundHalfEven
  dsimp only
  split
  next => omega
  next =>
    split
    next => exact le_rfl
    next => omega

theorem roundHalfEven_mono {p q : Rat} (le : p ≤ q) : roundHalfEven p ≤ roundHalfEven q := by
  have floors : p.floor ≤ q.floor := Int.floor_mono le
  rcases floors.lt_or_eq with below | same
  · have up := roundHalfEven_le_floor_add_one p
    have down := floor_le_roundHalfEven q
    omega
  · unfold roundHalfEven
    dsimp only
    rw [same]
    have rests : p - q.floor ≤ q - q.floor := by linarith
    split
    next =>
      split
      next => exact le_rfl
      next => split <;> omega
    next high =>
      have highToo : ¬ q - q.floor < 1 / 2 := not_lt.2 ((not_lt.1 high).trans rests)
      rw [if_neg highToo]
      split
      next higher => rw [if_pos (higher.trans_le rests)]
      next => split <;> omega

theorem roundHalfEven_le_of_le {q : Rat} {n : Int} (le : q ≤ n) : roundHalfEven q ≤ n :=
  (roundHalfEven_mono le).trans_eq (roundHalfEven_intCast n)

theorem le_roundHalfEven_of_le {q : Rat} {n : Int} (le : (n : Rat) ≤ q) : n ≤ roundHalfEven q :=
  (roundHalfEven_intCast n).symm.trans_le (roundHalfEven_mono le)

theorem binaryOrder_mono {p q : Rat} (positive : 0 < p) (le : p ≤ q) :
    binaryOrder p ≤ binaryOrder q := by
  rw [binaryOrder_eq_log positive, binaryOrder_eq_log (positive.trans_le le)]
  exact Int.log_mono_right positive le

namespace Magnitude

theorem keptExponent_mono {p q : Rat} (positive : 0 < p) (le : p ≤ q) :
    keptExponent p ≤ keptExponent q := by
  have := binaryOrder_mono positive le
  unfold keptExponent
  omega

theorem nearestRank_le_of_pos {q : Rat} (positive : 0 < q) :
    nearestRank q ≤ 2 * blockSize + (keptExponent q + 1074).toNat * blockSize := by
  have order : q < (2 : Rat) ^ (keptExponent q + 53) := by
    have kept : binaryOrder q < keptExponent q + 53 := by
      unfold keptExponent
      omega
    rw [binaryOrder_eq_log positive] at kept
    exact (Int.lt_zpow_iff_log_lt (by decide) positive).2 kept
  have digits : q / (2 : Rat) ^ keptExponent q ≤ ((2 * blockSize : Nat) : Int) := by
    rw [div_le_iff₀ (two_zpow_pos _)]
    rw [add_comm, zpow_add₀ (by norm_num)] at order
    refine order.le.trans_eq ?_
    norm_num [blockSize]
  have rounded := roundHalfEven_le_of_le digits
  rw [nearestRank, if_neg positive.ne']
  dsimp only
  omega

theorem le_nearestRank_of_kept {q : Rat} (positive : 0 < q) (normal : -1074 < keptExponent q) :
    blockSize + (keptExponent q + 1074).toNat * blockSize ≤ nearestRank q := by
  have order : (2 : Rat) ^ (keptExponent q + 52) ≤ q := by
    have kept : keptExponent q + 52 = binaryOrder q := by
      unfold keptExponent at normal ⊢
      omega
    rw [kept, binaryOrder_eq_log positive]
    exact Int.zpow_log_le_self (by decide) positive
  have digits : ((blockSize : Int) : Rat) ≤ q / (2 : Rat) ^ keptExponent q := by
    rw [le_div_iff₀ (two_zpow_pos _)]
    rw [add_comm, zpow_add₀ (by norm_num)] at order
    refine le_of_eq_of_le ?_ order
    norm_num [blockSize]
  have rounded := le_roundHalfEven_of_le digits
  rw [nearestRank, if_neg positive.ne']
  dsimp only
  omega

theorem nearestRank_mono {p q : Rat} (nonneg : 0 ≤ p) (le : p ≤ q) :
    nearestRank p ≤ nearestRank q := by
  rcases nonneg.eq_or_lt with zero | positive
  · rw [← zero, nearestRank, if_pos rfl]
    exact Nat.zero_le _
  have positive' := positive.trans_le le
  -- With more kept bits behind it a value starts a later block; with as many its digits decide.
  rcases (keptExponent_mono positive le).lt_or_eq with below | same
  · have least : -1074 ≤ keptExponent p := le_max_left _ _
    have up := nearestRank_le_of_pos positive
    have down := le_nearestRank_of_kept positive' (by omega)
    have blocks : (keptExponent p + 1074).toNat + 1 ≤ (keptExponent q + 1074).toNat := by omega
    have := Nat.mul_le_mul_right blockSize blocks
    rw [Nat.add_mul] at this
    omega
  · rw [nearestRank, if_neg positive.ne', nearestRank, if_neg positive'.ne']
    dsimp only
    rw [same]
    have digits : p / (2 : Rat) ^ keptExponent q ≤ q / (2 : Rat) ^ keptExponent q :=
      div_le_div_of_nonneg_right le (two_zpow_pos _).le
    have := roundHalfEven_mono digits
    omega

theorem value_eq_zero_of_rank {x : Magnitude} (first : x.rank = 0) : x.value = 0 := by
  simp [show x = zero from Magnitude.ext first]

end Magnitude

namespace Binary64

@[simp] theorem value?_finite (negative : Bool) (x : Magnitude) :
    (finite negative x).value? = some (signedValue negative x) := rfl

@[simp] theorem value?_zero : zero.value? = some 0 := by
  simp [zero, signedValue]

@[simp] theorem value?_negativeZero : negativeZero.value? = some 0 := by
  simp [negativeZero, signedValue]

@[simp] theorem value?_signedZero (negative : Bool) : (finite negative .zero).value? = some 0 := by
  cases negative with
  | false => exact value?_zero
  | true => exact value?_negativeZero

theorem eq_finite_of_value? {a : Binary64} {x : Rat} (value : a.value? = some x) :
    ∃ negative magnitude, a = .finite negative magnitude ∧ signedValue negative magnitude = x := by
  cases a with
  | nan => simp [value?] at value
  | infinite negative => simp [value?] at value
  | finite negative magnitude => exact ⟨negative, magnitude, rfl, Option.some.inj value⟩

theorem le_iff {a b : Binary64} :
    a.le b = true ↔ ∃ i j, a.numericKey? = some i ∧ b.numericKey? = some j ∧ i ≤ j := by
  unfold le
  cases a.numericKey? with
  | none => simp
  | some i =>
    cases b.numericKey? with
    | none => simp
    | some j => simp

theorem isNaN_eq_false_iff {x : Binary64} : x.isNaN = false ↔ ∃ k, x.numericKey? = some k := by
  cases x with
  | nan => simp [isNaN, numericKey?]
  | infinite negative => simp [isNaN, numericKey?]
  | finite negative magnitude => simp [isNaN, numericKey?]

theorem eq_nan_of_isNaN {x : Binary64} (isNaN : x.isNaN = true) : x = .nan := by
  cases x with
  | nan => rfl
  | infinite negative => exact absurd isNaN Bool.false_ne_true
  | finite negative magnitude => exact absurd isNaN Bool.false_ne_true

theorem lt_iff_not_le {a b : Binary64} (left : a.isNaN = false) (right : b.isNaN = false) :
    a.lt b = true ↔ ¬ b.le a = true := by
  obtain ⟨i, keyA⟩ := isNaN_eq_false_iff.1 left
  obtain ⟨j, keyB⟩ := isNaN_eq_false_iff.1 right
  simp [lt, le, keyA, keyB]

theorem numericEq_iff {a b : Binary64} :
    a.numericEq b = true ↔ a.le b = true ∧ b.le a = true := by
  unfold numericEq le
  cases a.numericKey? with
  | none => simp
  | some i =>
    cases b.numericKey? with
    | none => simp
    | some j => simpa using le_antisymm_iff

@[simp] theorem le_refl {a : Binary64} (number : a.isNaN = false) : a.le a = true := by
  obtain ⟨i, key⟩ := isNaN_eq_false_iff.1 number
  exact le_iff.2 ⟨i, i, key, key, Int.le_refl i⟩

theorem le_trans {a b c : Binary64} (ab : a.le b = true) (bc : b.le c = true) :
    a.le c = true := by
  obtain ⟨i, j, keyA, keyB, first⟩ := le_iff.1 ab
  obtain ⟨j', k, keyB', keyC, second⟩ := le_iff.1 bc
  rw [keyB, Option.some.injEq] at keyB'
  exact le_iff.2 ⟨i, k, keyA, keyC, by omega⟩

theorem le_total {a b : Binary64} (left : a.isNaN = false) (right : b.isNaN = false) :
    a.le b = true ∨ b.le a = true := by
  obtain ⟨i, keyA⟩ := isNaN_eq_false_iff.1 left
  obtain ⟨j, keyB⟩ := isNaN_eq_false_iff.1 right
  rcases Int.le_total i j with up | down
  · exact Or.inl (le_iff.2 ⟨i, j, keyA, keyB, up⟩)
  · exact Or.inr (le_iff.2 ⟨j, i, keyB, keyA, down⟩)

theorem isNaN_left {a b : Binary64} (le : a.le b = true) : a.isNaN = false := by
  obtain ⟨i, -, keyA, -, -⟩ := le_iff.1 le
  exact isNaN_eq_false_iff.2 ⟨i, keyA⟩

theorem isNaN_right {a b : Binary64} (le : a.le b = true) : b.isNaN = false := by
  obtain ⟨-, j, -, keyB, -⟩ := le_iff.1 le
  exact isNaN_eq_false_iff.2 ⟨j, keyB⟩

theorem totalKey_of_numericKey? {x : Binary64} {k : Int} (key : x.numericKey? = some k) :
    0 ≤ k ∧ x.totalKey = k ∨ k ≤ 0 ∧ x.totalKey = k - 1 := by
  cases x with
  | nan => simp [numericKey?] at key
  | infinite negative =>
    cases negative <;> simp [numericKey?] at key <;> simp [totalKey] <;> omega
  | finite negative magnitude =>
    cases negative <;> simp [numericKey?] at key <;> simp [totalKey] <;> omega

theorem le_of_totalLe {a b : Binary64} (left : a.isNaN = false) (right : b.isNaN = false)
    (total : a.totalLe b = true) : a.le b = true := by
  obtain ⟨i, keyA⟩ := isNaN_eq_false_iff.1 left
  obtain ⟨j, keyB⟩ := isNaN_eq_false_iff.1 right
  have totalA := totalKey_of_numericKey? keyA
  have totalB := totalKey_of_numericKey? keyB
  have ordered : a.totalKey ≤ b.totalKey := of_decide_eq_true total
  exact le_iff.2 ⟨i, j, keyA, keyB, by omega⟩

/-- The numeric order refines the total one below all but negative zero. -/
theorem totalLe_of_le {a b : Binary64} (le : a.le b = true) (signless : b ≠ .negativeZero) :
    a.totalLe b = true := by
  obtain ⟨i, j, keyA, keyB, ordered⟩ := le_iff.1 le
  have totalA := totalKey_of_numericKey? keyA
  have totalB := totalKey_of_numericKey? keyB
  have place : b.totalKey ≠ -1 := fun same => signless (totalKey_injective same)
  rw [totalLe, decide_eq_true_eq]
  omega

/-- The place of the number that a rational value rounds to. -/
def roundedKey (q : Rat) : Int :=
  if q < 0 then -(Min.min (Magnitude.nearestRank (-q)) infiniteRank : Nat)
  else (Min.min (Magnitude.nearestRank q) infiniteRank : Nat)

theorem numericKey?_nearest (negative : Bool) (q : Rat) :
    (match Magnitude.nearest? q with
      | some magnitude => finite negative magnitude
      | none => infinite negative).numericKey? =
    some (if negative then -((Min.min (Magnitude.nearestRank q) infiniteRank : Nat) : Int)
      else ((Min.min (Magnitude.nearestRank q) infiniteRank : Nat) : Int)) := by
  unfold Magnitude.nearest?
  by_cases inRange : Magnitude.nearestRank q < 2047 * Magnitude.blockSize
  · have least : Min.min (Magnitude.nearestRank q) infiniteRank = Magnitude.nearestRank q :=
      Nat.min_eq_left inRange.le
    rw [dif_pos inRange, least]
    rfl
  · have greatest : Min.min (Magnitude.nearestRank q) infiniteRank = infiniteRank :=
      Nat.min_eq_right (not_lt.1 inRange)
    rw [dif_neg inRange, greatest]
    rfl

@[simp] theorem numericKey?_ofRat (zeroNegative : Bool) (q : Rat) :
    (ofRat zeroNegative q).numericKey? = some (roundedKey q) := by
  unfold ofRat roundedKey
  by_cases exactZero : q = 0
  · subst exactZero
    simp [numericKey?, Magnitude.nearestRank, Magnitude.zero]
  · rw [if_neg exactZero]
    refine (numericKey?_nearest (decide (q < 0)) _).trans ?_
    by_cases negative : q < 0
    · simp only [negative, decide_true, if_true]
    · simp only [negative, decide_false, if_false, Bool.false_eq_true]

theorem roundedKey_mono {p q : Rat} (le : p ≤ q) : roundedKey p ≤ roundedKey q := by
  unfold roundedKey
  split
  next negative =>
    split
    next =>
      have := Magnitude.nearestRank_mono (by linarith) (neg_le_neg le)
      omega
    next => omega
  next nonneg =>
    rw [if_neg (not_lt.2 ((not_lt.1 nonneg).trans le))]
    have := Magnitude.nearestRank_mono (not_lt.1 nonneg) le
    omega

@[simp] theorem ofRat_signedValue (negative : Bool) (x : Magnitude) :
    ofRat negative (signedValue negative x) = .finite negative x :=
  ofRat_of_nearest? negative x.value_nonneg (Magnitude.nearest?_value x)

theorem numericKey?_of_value? {a : Binary64} {x : Rat} (value : a.value? = some x) :
    a.numericKey? = some (roundedKey x) := by
  obtain ⟨negative, magnitude, rfl, rfl⟩ := eq_finite_of_value? value
  rw [← ofRat_signedValue negative magnitude, numericKey?_ofRat]

theorem numericKey?_bounds {a : Binary64} {x : Rat} (value : a.value? = some x) :
    ∃ k, a.numericKey? = some k ∧ -(infiniteRank : Int) < k ∧ k < infiniteRank := by
  obtain ⟨negative, magnitude, rfl, -⟩ := eq_finite_of_value? value
  have bound : magnitude.rank < infiniteRank := magnitude.rank_lt
  refine ⟨_, rfl, ?_, ?_⟩
  · split <;> omega
  · split <;> omega

theorem value?_of_numericKey?_eq {a b : Binary64} {x : Rat} (value : a.value? = some x)
    (same : a.numericKey? = b.numericKey?) : b.value? = some x := by
  obtain ⟨k, place, least, greatest⟩ := numericKey?_bounds value
  obtain ⟨s, m, rfl, rfl⟩ := eq_finite_of_value? value
  rw [same] at place
  cases b with
  | nan => simp [numericKey?] at place
  | infinite t => cases t <;> simp [numericKey?] at place <;> omega
  | finite t n =>
    simp only [numericKey?, Option.some.injEq] at same
    rw [value?_finite, Option.some.injEq]
    by_cases signs : t = s
    · have ranks : n.rank = m.rank := by
        subst signs
        cases t <;> simpa using same.symm
      rw [signs, Magnitude.ext ranks]
    · have zeros : m.rank = 0 ∧ n.rank = 0 := by
        cases s <;> cases t <;> simp at signs same <;> omega
      simp [signedValue, Magnitude.value_eq_zero_of_rank zeros.1,
        Magnitude.value_eq_zero_of_rank zeros.2]

theorem le_ofRat {a : Binary64} {x q : Rat} (zeroNegative : Bool) (value : a.value? = some x)
    (le : x ≤ q) : a.le (ofRat zeroNegative q) = true :=
  le_iff.2 ⟨_, _, numericKey?_of_value? value, numericKey?_ofRat _ _, roundedKey_mono le⟩

theorem ofRat_le {a : Binary64} {x q : Rat} (zeroNegative : Bool) (value : a.value? = some x)
    (le : q ≤ x) : (ofRat zeroNegative q).le a = true :=
  le_iff.2 ⟨_, _, numericKey?_ofRat _ _, numericKey?_of_value? value, roundedKey_mono le⟩

theorem ofRat_le_ofRat (s t : Bool) {p q : Rat} (le : p ≤ q) :
    (ofRat s p).le (ofRat t q) = true :=
  le_iff.2 ⟨_, _, numericKey?_ofRat _ _, numericKey?_ofRat _ _, roundedKey_mono le⟩

theorem value?_ofRat {a : Binary64} {x : Rat} (zeroNegative : Bool) (value : a.value? = some x) :
    (ofRat zeroNegative x).value? = some x :=
  value?_of_numericKey?_eq value
    ((numericKey?_of_value? value).trans (numericKey?_ofRat zeroNegative x).symm)

theorem le_iff_of_value? {a b : Binary64} {x y : Rat} (left : a.value? = some x)
    (right : b.value? = some y) : a.le b = true ↔ x ≤ y := by
  constructor
  · intro le
    by_contra above
    have ge := roundedKey_mono (not_le.1 above).le
    obtain ⟨i, j, keyA, keyB, ordered⟩ := le_iff.1 le
    rw [numericKey?_of_value? left, Option.some.injEq] at keyA
    rw [numericKey?_of_value? right, Option.some.injEq] at keyB
    have same : a.numericKey? = b.numericKey? := by
      rw [numericKey?_of_value? left, numericKey?_of_value? right, Option.some.injEq]
      omega
    have value := value?_of_numericKey?_eq left same
    rw [right, Option.some.injEq] at value
    exact above value.ge
  · intro ordered
    exact le_iff.2
      ⟨_, _, numericKey?_of_value? left, numericKey?_of_value? right, roundedKey_mono ordered⟩

theorem lt_iff_of_value? {a b : Binary64} {x y : Rat} (left : a.value? = some x)
    (right : b.value? = some y) : a.lt b = true ↔ x < y := by
  have numberA := isNaN_eq_false_iff.2 ⟨_, numericKey?_of_value? left⟩
  have numberB := isNaN_eq_false_iff.2 ⟨_, numericKey?_of_value? right⟩
  rw [lt_iff_not_le numberA numberB, le_iff_of_value? right left, not_le]

theorem numericEq_iff_of_value? {a b : Binary64} {x y : Rat} (left : a.value? = some x)
    (right : b.value? = some y) : a.numericEq b = true ↔ x = y := by
  rw [numericEq_iff, le_iff_of_value? left right, le_iff_of_value? right left, le_antisymm_iff]

theorem finite_or_infinite {x : Binary64} (number : x.isNaN = false) :
    (∃ v, x.value? = some v) ∨ ∃ negative, x = infinite negative := by
  cases x with
  | nan => exact absurd number (by decide)
  | infinite negative => exact Or.inr ⟨negative, rfl⟩
  | finite negative magnitude => exact Or.inl ⟨_, value?_finite negative magnitude⟩

theorem eq_infinite_of_le {x : Binary64} (above : (infinite false).le x = true) :
    x = infinite false := by
  rcases finite_or_infinite (isNaN_right above) with ⟨v, value⟩ | ⟨negative, rfl⟩
  · obtain ⟨k, place, -, greatest⟩ := numericKey?_bounds value
    obtain ⟨i, k', keyInfinite, keyX, up⟩ := le_iff.1 above
    cases keyInfinite
    cases place.symm.trans keyX
    exact absurd up (not_le.2 greatest)
  · cases negative with
    | true => exact absurd above (by decide)
    | false => rfl

theorem eq_infinite_of_ge {x : Binary64} (below : x.le (infinite true) = true) :
    x = infinite true := by
  rcases finite_or_infinite (isNaN_left below) with ⟨v, value⟩ | ⟨negative, rfl⟩
  · obtain ⟨k, place, least, -⟩ := numericKey?_bounds value
    obtain ⟨k', j, keyX, keyInfinite, down⟩ := le_iff.1 below
    cases keyInfinite
    cases place.symm.trans keyX
    exact absurd down (not_le.2 least)
  · cases negative with
    | true => rfl
    | false => exact absurd below (by decide)

theorem exists_value?_of_between {lo hi x : Binary64} {l h : Rat} (lower : lo.value? = some l)
    (upper : hi.value? = some h) (above : lo.le x = true) (below : x.le hi = true) :
    ∃ v, x.value? = some v ∧ l ≤ v ∧ v ≤ h := by
  cases x with
  | nan => exact absurd (isNaN_left below) (by decide)
  | infinite negative =>
    obtain ⟨s, m, rfl, -⟩ := eq_finite_of_value? lower
    obtain ⟨t, n, rfl, -⟩ := eq_finite_of_value? upper
    cases negative with
    | true => exact absurd (eq_infinite_of_ge above) (by simp)
    | false => exact absurd (eq_infinite_of_le below) (by simp)
  | finite negative magnitude =>
    exact ⟨_, rfl, (le_iff_of_value? lower rfl).1 above, (le_iff_of_value? rfl upper).1 below⟩

end Binary64

end BenchStats
