import BenchStats.Proofs.Binary64.Exchange
import BenchStats.Proofs.Series.Correlation
import BenchStats.Series.Change
import Mathlib.Data.List.InsertIdx

/-!
# What a correlation depends on

Two series are correlated by the pairs that have a number on both sides, in order.  Other pairs can
be put in and taken out, and the sides can be exchanged: every product is the same, and each sum has
the same summands in the same order.
-/

namespace BenchStats.Series

open Binary64

/-- A pair with a number on both sides. -/
def completePair? : Option Binary64 × Option Binary64 → Option (Binary64 × Binary64)
  | (some x, some y) => if x.isNaN || y.isNaN then none else some (x, y)
  | _ => none

theorem completePairs_eq (xs ys : List (Option Binary64)) :
    completePairs xs ys = (xs.zip ys).filterMap completePair? := rfl

/-- There is no value, or it is not a number. -/
def IsAbsent (x : Option Binary64) : Prop := x = none ∨ x = some .nan

@[simp] theorem completePair?_eq_none_iff {x y : Option Binary64} :
    completePair? (x, y) = none ↔ IsAbsent x ∨ IsAbsent y := by
  unfold IsAbsent
  cases x with
  | none => simp [completePair?]
  | some x =>
    cases y with
    | none => simp [completePair?]
    | some y => cases x <;> cases y <;> simp [completePair?, isNaN]

/-! ### Pairs that are not complete -/

section Incomplete

variable {x y : Option Binary64}

theorem completePairs_insertIdx (incomplete : IsAbsent x ∨ IsAbsent y)
    (xs ys : List (Option Binary64)) (i : Nat) :
    completePairs (xs.insertIdx i x) (ys.insertIdx i y) = completePairs xs ys := by
  simp only [completePairs_eq]
  induction i generalizing xs ys with
  | zero => exact List.filterMap_cons_none (completePair?_eq_none_iff.2 incomplete)
  | succ i inductionHypothesis =>
    cases xs with
    | nil => rfl
    | cons first xs =>
      cases ys with
      | nil => rfl
      | cons second ys =>
        simp only [List.insertIdx_succ_cons, List.zip_cons_cons, List.filterMap_cons,
          inductionHypothesis]

theorem correlation_insertIdx (incomplete : IsAbsent x ∨ IsAbsent y)
    (xs ys : List (Option Binary64)) (i : Nat) :
    correlation (xs.insertIdx i x) (ys.insertIdx i y) = correlation xs ys := by
  rw [correlation, correlation, completePairs_insertIdx incomplete]

theorem correlation_eraseIdx {xs ys : List (Option Binary64)} {i : Nat} (left : xs[i]? = some x)
    (right : ys[i]? = some y) (incomplete : IsAbsent x ∨ IsAbsent y) :
    correlation (xs.eraseIdx i) (ys.eraseIdx i) = correlation xs ys := by
  obtain ⟨inLeft, rfl⟩ := List.getElem?_eq_some_iff.1 left
  obtain ⟨inRight, rfl⟩ := List.getElem?_eq_some_iff.1 right
  rw [← correlation_insertIdx incomplete _ _ i, List.insertIdx_eraseIdx_getElem inLeft,
    List.insertIdx_eraseIdx_getElem inRight]

end Incomplete

/-! ### Exchanged sides -/

theorem percentDifference_comm (a b : Binary64) :
    percentDifference a b = percentDifference b a := by
  rw [percentDifference, percentDifference, abs_sub_swap, Binary64.add_swap]

@[simp] theorem completePair?_swap (pair : Option Binary64 × Option Binary64) :
    completePair? pair.swap = (completePair? pair).map Prod.swap := by
  obtain ⟨_ | x, _ | y⟩ := pair
  · rfl
  · rfl
  · rfl
  · simp only [completePair?, Prod.swap_prod_mk, Bool.or_comm]
    split <;> rfl

theorem completePairs_comm (xs ys : List (Option Binary64)) :
    completePairs ys xs = (completePairs xs ys).map Prod.swap := by
  rw [completePairs_eq, completePairs_eq, ← List.zip_swap, List.filterMap_map, List.map_filterMap]
  exact List.filterMap_congr fun pair _ => completePair?_swap pair

/-- The moments of the sides in the other order. -/
def Moments.exchanged (m : Moments) : Moments := ⟨m.mixed, m.second, m.first⟩

@[simp] theorem Moments.exchanged_add (m : Moments) (dx dy : Binary64) :
    m.exchanged.add dy dx = (m.add dx dy).exchanged := by
  rw [Moments.add, Moments.add, Binary64.mul_swap dy dx]
  rfl

@[simp] theorem moments_swap (centre : Binary64 × Binary64) (pairs : List (Binary64 × Binary64)) :
    moments centre.swap (pairs.map Prod.swap) = (moments centre pairs).exchanged := by
  rw [moments, moments, List.foldl_map]
  show List.foldl _ (Moments.exchanged ⟨.zero, .zero, .zero⟩) pairs = _
  exact List.foldl_hom Moments.exchanged fun m pair => m.exchanged_add _ _

@[simp] theorem centre_swap (pairs : List (Binary64 × Binary64)) :
    centre (pairs.map Prod.swap) = (centre pairs).swap := by
  simp only [centre, List.map_map, List.length_map]
  rfl

@[simp] theorem Moments.quotient_exchanged (m : Moments) : m.exchanged.quotient = m.quotient := by
  simp only [Moments.quotient, Moments.exchanged, Bool.or_comm, Binary64.mul_swap m.second]

theorem correlation_comm (xs ys : List (Option Binary64)) :
    correlation ys xs = correlation xs ys := by
  rw [correlation_eq, correlation_eq, centralMoments, centralMoments, completePairs_comm,
    centre_swap, moments_swap, Moments.quotient_exchanged, List.length_map]

end BenchStats.Series
