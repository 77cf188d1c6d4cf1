import BenchStats.Proofs.Binary64.Error
import Mathlib.Algebra.BigOperators.Fin
import Mathlib.Algebra.Order.BigOperators.Ring.Finset

/-!
# Rounded sums of products

A sum of products is rounded twice for every pair.  As long as it is finite it is hardly less than
the exact sum of products that are not negative, and it is finite and hardly more than the exact sum
of the absolute values as long as that is not too large.  The exact sums satisfy the inequality of
Cauchy and Schwarz.
-/

namespace BenchStats.Binary64

/-- The value of a finite number; `0` for the others. -/
def toRat (x : Binary64) : Rat := x.value?.getD 0

@[simp] theorem value?_eq_toRat {x : Binary64} (finite : x.isFinite = true) :
    x.value? = some x.toRat := by
  cases x with
  | nan => cases finite
  | infinite negative => cases finite
  | finite negative magnitude => rfl

theorem toRat_of_value? {x : Binary64} {q : Rat} (value : x.value? = some q) :
    x.isFinite = true ∧ x.toRat = q := by
  obtain ⟨negative, magnitude, rfl, rfl⟩ := eq_finite_of_value? value
  exact ⟨rfl, rfl⟩

section Operations

variable {a b : Binary64}

theorem isFinite_of_add (finite : (a.add b).isFinite = true) :
    a.isFinite = true ∧ b.isFinite = true := by
  cases a with
  | nan => cases finite
  | infinite s =>
    cases b with
    | nan => cases finite
    | infinite t =>
      simp only [add] at finite
      split at finite <;> cases finite
    | finite t n => cases finite
  | finite s m =>
    cases b with
    | nan => cases finite
    | infinite t => cases finite
    | finite t n => exact ⟨rfl, rfl⟩

theorem isFinite_of_mul (finite : (a.mul b).isFinite = true) :
    a.isFinite = true ∧ b.isFinite = true := by
  cases a with
  | nan => cases finite
  | infinite s =>
    cases b with
    | nan => cases finite
    | infinite t => cases finite
    | finite t n =>
      simp only [mul] at finite
      split at finite <;> cases finite
  | finite s m =>
    cases b with
    | nan => cases finite
    | infinite t =>
      simp only [mul] at finite
      split at finite <;> cases finite
    | finite t n => exact ⟨rfl, rfl⟩

@[simp] theorem isFinite_neg (a : Binary64) : a.neg.isFinite = a.isFinite := by
  cases a <;> rfl

theorem isFinite_of_div (finite : (a.div b).isFinite = true) : a.isFinite = true := by
  cases a with
  | nan => cases finite
  | infinite s => cases b <;> cases finite
  | finite s m => rfl

theorem isFinite_of_sqrt (finite : a.sqrt.isFinite = true) : a.isFinite = true := by
  cases a with
  | nan => cases finite
  | infinite s => cases s <;> cases finite
  | finite s m => rfl

theorem div_eq_nan (left : a.isFinite = false) (right : b.isFinite = false) : a.div b = .nan := by
  cases a with
  | nan => rfl
  | infinite s =>
    cases b with
    | nan => rfl
    | infinite t => rfl
    | finite t n => cases right
  | finite s m => cases left

theorem rounded_add (finite : (a.add b).isFinite = true) :
    Rounded (a.toRat + b.toRat) (a.add b).toRat := by
  obtain ⟨left, right⟩ := isFinite_of_add finite
  obtain ⟨s, sum⟩ := add_eq_ofRat (value?_eq_toRat left) (value?_eq_toRat right)
  apply rounded_of_ofRat
  rw [← sum]
  exact value?_eq_toRat finite

theorem rounded_mul (finite : (a.mul b).isFinite = true) :
    Rounded (a.toRat * b.toRat) (a.mul b).toRat := by
  obtain ⟨left, right⟩ := isFinite_of_mul finite
  obtain ⟨s, product⟩ := mul_eq_ofRat (value?_eq_toRat left) (value?_eq_toRat right)
  apply rounded_of_ofRat
  rw [← product]
  exact value?_eq_toRat finite

end Operations

theorem isFinite_ofRat {s : Bool} {q : Rat} {power : Nat} (inRange : power ≤ 970)
    (small : |q| ≤ 2 ^ power) : (ofRat s q).isFinite = true := by
  obtain ⟨v, value, -⟩ := exists_value?_of_abs_le s inRange small
  exact (toRat_of_value? value).1

/-- A total whose absolute value is under a bound. -/
structure Under (bound : Rat) (total : Binary64) : Prop where
  finite : total.isFinite = true
  size : |total.toRat| ≤ bound

/-- What the bound on a total grows to with a product of the given size. -/
def grown (bound size : Rat) : Rat :=
  (bound + (size * (1 + unitRoundoff) + underflowUnit)) * (1 + unitRoundoff) + underflowUnit

theorem le_grown {bound size : Rat} (bounded : 0 ≤ bound) (nonneg : 0 ≤ size) :
    bound + (size * (1 + unitRoundoff) + underflowUnit) ≤ grown bound size := by
  have unit := unitRoundoff_pos
  have underflow := underflowUnit_pos
  refine LE.le.trans ?_ (le_add_of_nonneg_right underflow.le)
  apply le_mul_of_one_le_right (by positivity)
  linarith

/-- One more product keeps a total under its bound, which grows. -/
theorem Under.step {bound : Rat} {total a b : Binary64} {power : Nat} (under : Under bound total)
    (left : a.isFinite = true) (right : b.isFinite = true) (inRange : power ≤ 970)
    (small : grown bound |a.toRat * b.toRat| ≤ 2 ^ power) :
    Under (grown bound |a.toRat * b.toRat|) (total.add (a.mul b)) := by
  have unit := unitRoundoff_pos
  have underflow := underflowUnit_pos
  have size : 0 ≤ |a.toRat * b.toRat| := abs_nonneg _
  have share : 0 ≤ |a.toRat * b.toRat| * unitRoundoff := mul_nonneg size unit.le
  have bounded : 0 ≤ bound := (abs_nonneg _).trans under.size
  have inside := le_grown bounded size
  have product : (a.mul b).isFinite = true := by
    obtain ⟨s, rounded⟩ := mul_eq_ofRat (value?_eq_toRat left) (value?_eq_toRat right)
    rw [rounded]
    apply isFinite_ofRat inRange
    linarith
  have term := (rounded_mul product).size_le
  have exact : |total.toRat + (a.mul b).toRat| ≤
      bound + (|a.toRat * b.toRat| * (1 + unitRoundoff) + underflowUnit) :=
    (abs_add_le _ _).trans (add_le_add under.size term)
  have sum : (total.add (a.mul b)).isFinite = true := by
    obtain ⟨s, rounded⟩ := add_eq_ofRat (value?_eq_toRat under.finite) (value?_eq_toRat product)
    rw [rounded]
    exact isFinite_ofRat inRange (exact.trans (inside.trans small))
  refine ⟨sum, (rounded_add sum).size_le.trans ?_⟩
  apply add_le_add_left
  exact mul_le_mul_of_nonneg_right exact (by positivity)

/-- A total of `n` products that has lost little of their exact sum. -/
structure Keeps (n : Nat) (size : Rat) (total : Binary64) : Prop where
  nonneg : 0 ≤ total.toRat
  least : (1 - unitRoundoff) ^ (n + 1) * size ≤ total.toRat + 2 * n * underflowUnit

/-- One more product that is not negative loses two roundings. -/
theorem Keeps.step {n : Nat} {size : Rat} {total a b : Binary64} (keeps : Keeps n size total)
    (finite : (total.add (a.mul b)).isFinite = true) (exact : 0 ≤ a.toRat * b.toRat) :
    Keeps (n + 1) (size + a.toRat * b.toRat) (total.add (a.mul b)) := by
  have unit := unitRoundoff_pos
  have rest : 0 < 1 - unitRoundoff := sub_pos.2 unitRoundoff_lt_one
  have underflow := underflowUnit_pos
  have rounded := rounded_mul (isFinite_of_add finite).2
  have nonneg : 0 ≤ total.toRat + (a.mul b).toRat :=
    add_nonneg keeps.nonneg (rounded.nonneg exact)
  refine ⟨(rounded_add finite).nonneg nonneg, ?_⟩
  have low := (rounded_add finite).le_value nonneg
  have product : (1 - unitRoundoff) ^ (n + 1) * (a.toRat * b.toRat) ≤
      (a.mul b).toRat + underflowUnit := by
    have loss : (1 - unitRoundoff) ^ (n + 1) ≤ 1 - unitRoundoff := by
      apply pow_le_of_le_one rest.le _ (Nat.succ_ne_zero _)
      linarith
    calc (1 - unitRoundoff) ^ (n + 1) * (a.toRat * b.toRat)
      _ ≤ (1 - unitRoundoff) * (a.toRat * b.toRat) := mul_le_mul_of_nonneg_right loss exact
      _ = a.toRat * b.toRat * (1 - unitRoundoff) := mul_comm _ _
      _ ≤ (a.mul b).toRat + underflowUnit := rounded.le_value exact
  have share : 0 ≤ (2 * n + 1) * underflowUnit * unitRoundoff := by positivity
  push_cast
  calc (1 - unitRoundoff) ^ (n + 1 + 1) * (size + a.toRat * b.toRat)
    _ = ((1 - unitRoundoff) ^ (n + 1) * size +
        (1 - unitRoundoff) ^ (n + 1) * (a.toRat * b.toRat)) * (1 - unitRoundoff) := by ring
    _ ≤ (total.toRat + 2 * n * underflowUnit + ((a.mul b).toRat + underflowUnit)) *
        (1 - unitRoundoff) := mul_le_mul_of_nonneg_right (add_le_add keeps.least product) rest.le
    _ ≤ (total.toRat + (a.mul b).toRat) * (1 - unitRoundoff) +
        (2 * n + 1) * underflowUnit := by linarith
    _ ≤ (total.add (a.mul b)).toRat + 2 * (n + 1) * underflowUnit := by linarith

/-- The sum of the products of pairs from left to right, each product and each sum rounded. -/
def sumProducts (pairs : List (Binary64 × Binary64)) : Binary64 :=
  pairs.foldl (fun total p => total.add (p.1.mul p.2)) .zero

/-- The pairs that multiply to the squares of one side. -/
def squares (side : Binary64 × Binary64 → Binary64) (pairs : List (Binary64 × Binary64)) :
    List (Binary64 × Binary64) :=
  pairs.map fun p => (side p, side p)

@[simp] theorem length_squares (side : Binary64 × Binary64 → Binary64)
    (pairs : List (Binary64 × Binary64)) : (squares side pairs).length = pairs.length :=
  List.length_map _

/-- The exact sum of the absolute values of the products. -/
def productSize (pairs : List (Binary64 × Binary64)) : Rat :=
  (pairs.map fun p => |p.1.toRat * p.2.toRat|).sum

/-- What the absolute value of a rounded sum of products is held under. -/
def productBound (pairs : List (Binary64 × Binary64)) : Rat :=
  (1 + unitRoundoff) ^ (pairs.length + 1) *
    (productSize pairs + 3 * pairs.length * underflowUnit)

section Pairs

variable (pairs : List (Binary64 × Binary64)) (p : Binary64 × Binary64)

@[simp] theorem sumProducts_concat :
    sumProducts (pairs ++ [p]) = (sumProducts pairs).add (p.1.mul p.2) := by
  rw [sumProducts, List.foldl_append]
  rfl

@[simp] theorem productSize_concat :
    productSize (pairs ++ [p]) = productSize pairs + |p.1.toRat * p.2.toRat| := by
  rw [productSize, List.map_append, List.sum_append]
  simp [productSize]

@[simp] theorem productSize_nonneg : 0 ≤ productSize pairs := by
  apply List.sum_nonneg
  simp only [List.mem_map]
  rintro _ ⟨p, -, rfl⟩
  exact abs_nonneg _

/-- The absolute values of products are those of the factors multiplied, so their sum is under the
root of the sums of squares. -/
theorem sq_productSize_le : productSize pairs ^ 2 ≤
    productSize (squares Prod.fst pairs) * productSize (squares Prod.snd pairs) := by
  have cauchySchwarz := Finset.sum_mul_sq_le_sq_mul_sq Finset.univ
    (fun i : Fin pairs.length => |pairs[i.1].1.toRat|) (fun i => |pairs[i.1].2.toRat|)
  simp only [← abs_mul, sq_abs] at cauchySchwarz
  rw [Fin.sum_univ_fun_getElem pairs fun p => |p.1.toRat * p.2.toRat|,
    Fin.sum_univ_fun_getElem pairs fun p => p.1.toRat ^ 2,
    Fin.sum_univ_fun_getElem pairs fun p => p.2.toRat ^ 2] at cauchySchwarz
  simpa [productSize, squares, Function.comp_def, abs_mul_abs_self, sq] using cauchySchwarz

/-- With a pair behind it a bound grows by the errors of two more roundings. -/
theorem grown_le_productBound :
    grown (productBound pairs) |p.1.toRat * p.2.toRat| ≤ productBound (pairs ++ [p]) := by
  have unit := unitRoundoff_pos
  have underflow := underflowUnit_pos
  have growth : 1 + unitRoundoff ≤ (1 + unitRoundoff) ^ (pairs.length + 1) := by
    apply le_self_pow₀ _ (Nat.succ_ne_zero _)
    linarith
  have more : |p.1.toRat * p.2.toRat| * (1 + unitRoundoff) + 3 * underflowUnit ≤
      (1 + unitRoundoff) ^ (pairs.length + 1) *
        (|p.1.toRat * p.2.toRat| + 3 * underflowUnit) := by
    have share : 0 ≤ unitRoundoff * (3 * underflowUnit) := by positivity
    refine LE.le.trans ?_ (mul_le_mul_of_nonneg_right growth (by positivity))
    linarith
  have share : 0 ≤ underflowUnit * unitRoundoff := by positivity
  calc grown (productBound pairs) |p.1.toRat * p.2.toRat|
    _ ≤ (productBound pairs + (|p.1.toRat * p.2.toRat| * (1 + unitRoundoff) +
        3 * underflowUnit)) * (1 + unitRoundoff) := by
      rw [grown]
      linarith
    _ ≤ (productBound pairs + (1 + unitRoundoff) ^ (pairs.length + 1) *
        (|p.1.toRat * p.2.toRat| + 3 * underflowUnit)) * (1 + unitRoundoff) :=
      mul_le_mul_of_nonneg_right (add_le_add_right more _) (by positivity)
    _ = productBound (pairs ++ [p]) := by
      rw [productBound, productBound, productSize_concat, List.length_append,
        List.length_singleton]
      push_cast
      ring

@[simp] theorem productBound_nonneg : 0 ≤ productBound pairs := by
  have unit := unitRoundoff_pos
  have underflow := underflowUnit_pos
  have size := productSize_nonneg pairs
  exact mul_nonneg (by positivity) (by positivity)

end Pairs

variable {pairs : List (Binary64 × Binary64)}

theorem isFinite_of_sumProducts (finite : (sumProducts pairs).isFinite = true) :
    ∀ p ∈ pairs, p.1.isFinite = true ∧ p.2.isFinite = true := by
  induction pairs using List.reverseRecOn with
  | nil => simp
  | append_singleton pairs last inductionHypothesis =>
    rw [sumProducts_concat] at finite
    obtain ⟨before, product⟩ := isFinite_of_add finite
    intro p member
    rcases List.mem_append.1 member with earlier | final
    · exact inductionHypothesis before p earlier
    · rw [List.mem_singleton.1 final]
      exact isFinite_of_mul product

/-- A finite rounded sum of products that are not negative is hardly less than the exact one. -/
theorem keeps_sumProducts (finite : (sumProducts pairs).isFinite = true)
    (nonneg : ∀ p ∈ pairs, 0 ≤ p.1.toRat * p.2.toRat) :
    Keeps pairs.length (productSize pairs) (sumProducts pairs) := by
  -- From the last pair on, since only the whole sum is known to be finite.
  induction pairs using List.reverseRecOn with
  | nil =>
    have zero : (sumProducts []).toRat = 0 := (toRat_of_value? value?_zero).2
    refine ⟨zero.ge, ?_⟩
    simp [zero, productSize]
  | append_singleton pairs p inductionHypothesis =>
    have last : 0 ≤ p.1.toRat * p.2.toRat := nonneg p (List.mem_append_right _ (by simp))
    rw [sumProducts_concat] at finite
    rw [sumProducts_concat, productSize_concat, abs_of_nonneg last, List.length_append]
    refine Keeps.step (inductionHypothesis (isFinite_of_add finite).1 ?_) finite last
    intro q member
    exact nonneg q (List.mem_append_left _ member)

/-- A rounded sum of products of finite numbers stays under its bound, and so it stays finite. -/
theorem under_sumProducts {power : Nat} (inRange : power ≤ 970)
    (finite : ∀ p ∈ pairs, p.1.isFinite = true ∧ p.2.isFinite = true)
    (small : productBound pairs ≤ 2 ^ power) : Under (productBound pairs) (sumProducts pairs) := by
  induction pairs using List.reverseRecOn with
  | nil =>
    have zero : (sumProducts []).toRat = 0 := (toRat_of_value? value?_zero).2
    refine ⟨rfl, ?_⟩
    simp [zero, productSize, productBound]
  | append_singleton pairs p inductionHypothesis =>
    have grows := grown_le_productBound pairs p
    obtain ⟨left, right⟩ := finite p (List.mem_append_right _ (by simp))
    have before : Under (productBound pairs) (sumProducts pairs) := by
      apply inductionHypothesis
      · intro q member
        exact finite q (List.mem_append_left _ member)
      · have unit := unitRoundoff_pos
        have underflow := underflowUnit_pos
        have inside := le_grown (productBound_nonneg pairs) (abs_nonneg (p.1.toRat * p.2.toRat))
        refine le_of_add_le_of_nonneg_left (inside.trans (grows.trans small)) ?_
        positivity
    have step := before.step left right inRange (grows.trans small)
    rw [sumProducts_concat]
    exact ⟨step.finite, step.size.trans grows⟩

end BenchStats.Binary64
