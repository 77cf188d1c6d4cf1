import BenchStats.Proofs.Binary64.Order
import BenchStats.Series.Summary
import Mathlib.Data.List.Basic

/-!
# Ascending series

Statistics are taken of the numbers of a series in the total order.  Values that tie in it are the
same, so the sorted series depends only on which numbers there are and how often.
-/

namespace BenchStats.Series

/-- Numbers that stand in the total order. -/
structure Ascending (values : List Binary64) : Prop where
  isNumber : ∀ value ∈ values, value.isNaN = false
  inOrder : values.Pairwise fun a b => a.totalLe b = true

@[simp] theorem sorted_perm (values : List Binary64) :
    (sorted values).Perm (values.filter (!·.isNaN)) :=
  List.mergeSort_perm _ _

theorem sorted_inOrder (values : List Binary64) :
    (sorted values).Pairwise fun a b => a.totalLe b = true := by
  apply List.pairwise_mergeSort
  · intro a b c
    exact Binary64.totalLe_trans
  · exact Binary64.totalLe_total

@[simp] theorem mem_sorted {values : List Binary64} {value : Binary64} :
    value ∈ sorted values ↔ value ∈ values ∧ value.isNaN = false := by
  rw [(sorted_perm values).mem_iff]
  simp

@[simp] theorem sorted_ascending (values : List Binary64) : Ascending (sorted values) where
  isNumber _ member := (mem_sorted.1 member).2
  inOrder := sorted_inOrder values

theorem sorted_perm_of_numbers {values : List Binary64}
    (numbers : ∀ value ∈ values, value.isNaN = false) : (sorted values).Perm values := by
  have kept : values.filter (!·.isNaN) = values := by
    apply List.filter_eq_self.2
    intro value member
    rw [numbers value member]
    rfl
  simpa only [kept] using sorted_perm values

theorem eq_of_perm {values other : List Binary64} (permuted : values.Perm other)
    (inOrder : values.Pairwise fun a b => a.totalLe b = true)
    (inOrder' : other.Pairwise fun a b => a.totalLe b = true) : values = other := by
  refine permuted.eq_of_pairwise ?_ inOrder inOrder'
  intro a b _ _ ab ba
  apply Binary64.totalKey_injective
  exact Int.le_antisymm (of_decide_eq_true ab) (of_decide_eq_true ba)

@[simp] theorem Ascending.sorted_eq {values : List Binary64} (ascending : Ascending values) :
    sorted values = values :=
  eq_of_perm (sorted_perm_of_numbers ascending.isNumber) (sorted_inOrder values) ascending.inOrder

theorem sorted_eq_of_perm {values other : List Binary64}
    (same : (values.filter (!·.isNaN)).Perm (other.filter (!·.isNaN))) :
    sorted values = sorted other :=
  eq_of_perm (((sorted_perm values).trans same).trans (sorted_perm other).symm)
    (sorted_inOrder values) (sorted_inOrder other)

section Ranks

variable {values : List Binary64}

@[simp] theorem atRank_of_lt {rank : Nat} (inside : rank < values.length) :
    atRank values rank = values[rank] := by
  rw [atRank, List.getElem?_eq_getElem inside, Option.getD_some]

theorem head_eq_atRank (nonempty : values ≠ []) : values.head nonempty = atRank values 0 := by
  rw [atRank_of_lt (List.length_pos_of_ne_nil nonempty), List.head_eq_getElem]

theorem getLast_eq_atRank (nonempty : values ≠ []) :
    values.getLast nonempty = atRank values (values.length - 1) := by
  have inside : values.length - 1 < values.length :=
    Nat.sub_lt (List.length_pos_of_ne_nil nonempty) Nat.one_pos
  simp [inside, List.getLast_eq_getElem]

theorem Ascending.atRank_le (ascending : Ascending values) {i j : Nat} (le : i ≤ j)
    (inside : j < values.length) : (atRank values i).le (atRank values j) = true := by
  have number {rank : Nat} (inside : rank < values.length) : values[rank].isNaN = false :=
    ascending.isNumber _ (List.getElem_mem inside)
  rw [atRank_of_lt (Nat.lt_of_le_of_lt le inside), atRank_of_lt inside]
  rcases Nat.lt_or_eq_of_le le with below | rfl
  · refine Binary64.le_of_totalLe (number _) (number inside) ?_
    exact List.pairwise_iff_getElem.1 ascending.inOrder i j _ inside below
  · exact Binary64.le_refl (number inside)

theorem Ascending.between (ascending : Ascending values) {value : Binary64}
    (member : value ∈ values) :
    (atRank values 0).le value = true ∧ value.le (atRank values (values.length - 1)) = true := by
  obtain ⟨i, inside, rfl⟩ := List.getElem_of_mem member
  rw [← atRank_of_lt inside]
  constructor
  · exact ascending.atRank_le (Nat.zero_le i) inside
  · exact ascending.atRank_le (by omega) (by omega)

end Ranks

end BenchStats.Series
