import Mathlib.Data.List.Forall2

/-!
# Steps that may fail

A sequence of steps succeeds if each of them does, and fails with the first failure.
-/

namespace BenchStats

variable {ε δ α β : Type} {first : Except ε α} {next : α → Except ε β}

theorem bind_eq_ok {result : β} (succeeded : first >>= next = .ok result) :
    ∃ value, first = .ok value ∧ next value = .ok result := by
  cases first with
  | error e => cases succeeded
  | ok value => exact ⟨value, rfl, succeeded⟩

theorem bind_eq_error {e : ε} (failed : first >>= next = .error e) :
    first = .error e ∨ ∃ value, first = .ok value ∧ next value = .error e := by
  cases first with
  | error e' =>
    cases failed
    exact Or.inl rfl
  | ok value => exact Or.inr ⟨value, rfl, failed⟩

theorem map_eq_ok {change : α → β} {result : β} (succeeded : first.map change = .ok result) :
    ∃ value, first = .ok value ∧ change value = result := by
  cases first with
  | error e => cases succeeded
  | ok value => exact ⟨value, rfl, Except.ok.inj succeeded⟩

theorem mapError_bind (first : Except ε α) (next : α → Except ε β) (change : ε → δ) :
    (first >>= next).mapError change =
      first.mapError change >>= fun value => (next value).mapError change := by
  cases first <;> rfl

theorem map_mapM {γ : Type} (step : α → Except ε β) (change : β → γ) (xs : List α) :
    (xs.mapM step).map (List.map change) = xs.mapM fun x => (step x).map change := by
  induction xs with
  | nil => rfl
  | cons x rest inductionHypothesis =>
    rw [List.mapM_cons, List.mapM_cons, ← inductionHypothesis]
    cases step x with
    | error e => rfl
    | ok y => cases rest.mapM step <;> rfl

theorem mapM_eq_some_iff {step : α → Option β} {xs : List α} {ys : List β} :
    xs.mapM step = some ys ↔ List.Forall₂ (fun x y => step x = some y) xs ys := by
  induction xs generalizing ys with
  | nil => simp [eq_comm]
  | cons x rest inductionHypothesis =>
    rw [List.mapM_cons, List.forall₂_cons_left_iff]
    simp only [← inductionHypothesis, Option.bind_eq_bind, Option.bind_eq_some_iff,
      Option.pure_def, Option.some.injEq]
    constructor
    · rintro ⟨y, first, others, behind, rfl⟩
      exact ⟨y, others, first, behind, rfl⟩
    · rintro ⟨y, others, first, behind, rfl⟩
      exact ⟨y, first, others, behind, rfl⟩

@[simp] theorem isSome_mapM_iff {step : α → Option β} {xs : List α} :
    (xs.mapM step).isSome = true ↔ ∀ x ∈ xs, (step x).isSome = true := by
  induction xs with
  | nil => simp
  | cons first rest inductionHypothesis =>
    rw [List.mapM_cons, List.forall_mem_cons, ← inductionHypothesis]
    cases step first with
    | none => simp
    | some y => cases rest.mapM step <;> simp

end BenchStats
