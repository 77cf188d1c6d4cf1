import Mathlib.Data.List.Basic
import Mathlib.Data.List.Induction

/-!
# Distinct elements

The distinct elements of a list, in the order in which they first appear.
-/

namespace BenchStats

variable {α : Type} [DecidableEq α]

theorem eraseDups_concat (xs : List α) (x : α) :
    (xs ++ [x]).eraseDups = if x ∈ xs then xs.eraseDups else xs.eraseDups ++ [x] := by
  rw [List.eraseDups_append]
  by_cases old : x ∈ xs
  · simp [old, List.removeAll]
  · simp [old, List.removeAll, List.eraseDups_cons]

@[simp] theorem nodup_eraseDups (xs : List α) : xs.eraseDups.Nodup := by
  induction xs using List.reverseRecOn with
  | nil => simp
  | append_singleton others x inductionHypothesis =>
    rw [eraseDups_concat]
    split
    next => exact inductionHypothesis
    next new =>
      refine List.nodup_append.2 ⟨inductionHypothesis, List.pairwise_singleton _ x, ?_⟩
      rintro y old z (_ | ⟨_, ⟨⟩⟩) rfl
      exact new (List.mem_eraseDups.1 old)

theorem pairwise_idxOf_eraseDups (xs : List α) :
    xs.eraseDups.Pairwise fun a b => xs.idxOf a < xs.idxOf b := by
  induction xs using List.reverseRecOn with
  | nil => simp
  | append_singleton others x inductionHypothesis =>
    have kept : others.eraseDups.Pairwise fun a b =>
        (others ++ [x]).idxOf a < (others ++ [x]).idxOf b := by
      refine inductionHypothesis.imp_of_mem fun inA inB less => ?_
      rw [List.idxOf_append_of_mem (List.mem_eraseDups.1 inA),
        List.idxOf_append_of_mem (List.mem_eraseDups.1 inB)]
      exact less
    rw [eraseDups_concat]
    split
    next => exact kept
    next new =>
      refine List.pairwise_append.2 ⟨kept, List.pairwise_singleton _ x, ?_⟩
      rintro a old b (_ | ⟨_, ⟨⟩⟩)
      rw [List.idxOf_append_of_mem (List.mem_eraseDups.1 old), List.idxOf_append_of_notMem new]
      have inside := List.idxOf_lt_length_iff.2 (List.mem_eraseDups.1 old)
      omega

@[simp] theorem eraseDups_filter (p : α → Bool) (xs : List α) :
    (xs.filter p).eraseDups = xs.eraseDups.filter p := by
  induction xs using List.reverseRecOn with
  | nil => simp
  | append_singleton others x inductionHypothesis =>
    rw [List.filter_append, eraseDups_concat]
    by_cases holds : p x = true
    · rw [List.filter_cons_of_pos holds, List.filter_nil, eraseDups_concat, inductionHypothesis]
      by_cases old : x ∈ others
      · rw [if_pos old, if_pos (List.mem_filter.2 ⟨old, holds⟩)]
      · rw [if_neg old, if_neg fun inFilter => old (List.mem_filter.1 inFilter).1,
          List.filter_append, List.filter_cons_of_pos holds, List.filter_nil]
    · rw [List.filter_cons_of_neg holds, List.filter_nil, List.append_nil, inductionHypothesis]
      split
      next => rfl
      next =>
        rw [List.filter_append, List.filter_cons_of_neg holds, List.filter_nil, List.append_nil]

theorem eraseDups_perm {xs ys : List α} (perm : xs.Perm ys) :
    xs.eraseDups.Perm ys.eraseDups := by
  rw [List.perm_ext_iff_of_nodup (nodup_eraseDups xs) (nodup_eraseDups ys)]
  intro x
  rw [List.mem_eraseDups, List.mem_eraseDups, perm.mem_iff]

end BenchStats
