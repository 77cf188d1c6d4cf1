/-!
# Members

The members of an object or a table in a document: keys with values, in the order in which the keys
first appeared. Setting a key that is there replaces its value and keeps its place.
-/

namespace BenchStats

/-- Keys with values, in the order in which the keys first appeared. -/
abbrev Members (α : Type) := List (String × α)

namespace Members

variable {α : Type}

def set (key : String) (value : α) : Members α → Members α
  | [] => [(key, value)]
  | (k, v) :: rest => if k = key then (key, value) :: rest else (k, v) :: set key value rest

@[simp] theorem lookup_set_self (key : String) (value : α) (members : Members α) :
    (set key value members).lookup key = some value := by
  induction members with
  | nil => simp [set]
  | cons head rest inductionHypothesis =>
    rcases head with ⟨k, v⟩
    by_cases same : k = key
    · simp [set, same]
    · have skipped : (key == k) = false := by simpa using Ne.symm same
      simp [set, same, List.lookup_cons, skipped, inductionHypothesis]

@[simp] theorem lookup_set_of_ne {key other : String} (different : other ≠ key) (value : α)
    (members : Members α) : (set key value members).lookup other = members.lookup other := by
  have skipped : (other == key) = false := by simpa using different
  induction members with
  | nil => simp [set, List.lookup_cons, skipped]
  | cons head rest inductionHypothesis =>
    rcases head with ⟨k, v⟩
    by_cases same : k = key
    · simp [set, same, List.lookup_cons, skipped]
    · simp [set, same, List.lookup_cons, inductionHypothesis]

@[simp] theorem keys_set (key : String) (value : α) (members : Members α) :
    (set key value members).map Prod.fst =
      if key ∈ members.map Prod.fst then members.map Prod.fst
      else members.map Prod.fst ++ [key] := by
  induction members with
  | nil => simp [set]
  | cons head rest inductionHypothesis =>
    rcases head with ⟨k, v⟩
    by_cases same : k = key
    · simp [set, same]
    · simp only [set, same, if_false, List.map_cons, inductionHypothesis, List.mem_cons,
        Ne.symm same, false_or]
      split <;> simp

end Members

end BenchStats
