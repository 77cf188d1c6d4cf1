import BenchStats.Proofs.Distinct
import BenchStats.Proofs.Number.Cells
import BenchStats.Proofs.Outcome
import BenchStats.Proofs.Table.Positions
import BenchStats.Table.Group
import Mathlib.Data.List.Basic

/-!
# Groups by their keys

Collecting values under keys gives one group for every key, in the order in which the keys first
appear, and the group of a key holds the values of that key in row order.
-/

namespace BenchStats

namespace Groups

/-- The values that pairs have under a key, in order. -/
def valuesOf (pairs : List (String × Option Binary64)) (key : String) : List Binary64 :=
  (pairs.filter (·.1 = key)).filterMap Prod.snd

def collect (pairs : List (String × Option Binary64)) : Groups :=
  pairs.foldl (fun groups (key, value) => groups.add key value) []

theorem valuesOf_concat (pairs : List (String × Option Binary64)) (key : String)
    (value : Option Binary64) (name : String) :
    valuesOf (pairs ++ [(key, value)]) name =
      valuesOf pairs name ++ if key = name then value.toList else [] := by
  unfold valuesOf
  rw [List.filter_append, List.filterMap_append]
  by_cases same : key = name
  · cases value <;> simp [same]
  · simp [same]

theorem add_of_not_mem {key : String} {groups : Groups} (new : key ∉ groups.map Prod.fst)
    (value : Option Binary64) : add key value groups = groups ++ [(key, value.toList)] := by
  induction groups with
  | nil => rfl
  | cons group rest inductionHypothesis =>
    rw [List.map_cons, List.mem_cons, not_or] at new
    rw [add, if_neg (Ne.symm new.1), inductionHypothesis new.2, List.cons_append]

theorem add_of_mem {key : String} {names : List String} (distinct : names.Nodup)
    (old : key ∈ names) (value : Option Binary64) (values : String → List Binary64) :
    add key value (names.map fun name => (name, values name)) =
      names.map fun name => (name, values name ++ if key = name then value.toList else []) := by
  induction names with
  | nil => exact absurd old List.not_mem_nil
  | cons name rest inductionHypothesis =>
    obtain ⟨apart, restDistinct⟩ := List.nodup_cons.1 distinct
    rw [List.map_cons, List.map_cons, add]
    by_cases same : name = key
    · subst same
      rw [if_pos rfl, if_pos rfl]
      congr 1
      refine List.map_congr_left fun other member => ?_
      have different : name ≠ other := fun equal => apart (equal ▸ member)
      rw [if_neg different, List.append_nil]
    · have inRest : key ∈ rest := (List.mem_cons.1 old).resolve_left (Ne.symm same)
      rw [if_neg same, if_neg (Ne.symm same), List.append_nil,
        inductionHypothesis restDistinct inRest]

theorem valuesOf_of_not_mem {pairs : List (String × Option Binary64)} {key : String}
    (absent : key ∉ pairs.map Prod.fst) : valuesOf pairs key = [] := by
  have none : pairs.filter (·.1 = key) = [] := by
    rw [List.filter_eq_nil_iff]
    intro pair member
    have different : pair.1 ≠ key := fun equal => absent (equal ▸ List.mem_map_of_mem member)
    simpa using different
  rw [valuesOf, none, List.filterMap_nil]

/-- There is one group for each key, with all its values. -/
theorem collect_eq (pairs : List (String × Option Binary64)) :
    collect pairs = (pairs.map Prod.fst).eraseDups.map fun key => (key, valuesOf pairs key) := by
  induction pairs using List.reverseRecOn with
  | nil => rfl
  | append_singleton others pair inductionHypothesis =>
    obtain ⟨key, value⟩ := pair
    have step : collect (others ++ [(key, value)]) = add key value (collect others) := by
      rw [collect, List.foldl_append]
      rfl
    have distinct := nodup_eraseDups (others.map Prod.fst)
    simp only [step, inductionHypothesis, List.map_append, List.map_singleton, eraseDups_concat,
      valuesOf_concat]
    split
    next old => rw [add_of_mem distinct (List.mem_eraseDups.2 old)]
    next new =>
      have absent : key ∉ ((others.map Prod.fst).eraseDups.map
          fun name => (name, valuesOf others name)).map Prod.fst := by
        simpa [List.map_map, Function.comp_def] using new
      rw [add_of_not_mem absent, List.map_append, List.map_singleton, if_pos rfl,
        valuesOf_of_not_mem new, List.nil_append]
      congr 1
      refine List.map_congr_left fun name member => ?_
      have different : key ≠ name := fun equal => new (equal ▸ List.mem_eraseDups.1 member)
      rw [if_neg different, List.append_nil]

theorem valuesOf_perm {pairs other : List (String × Option Binary64)} (perm : pairs.Perm other)
    (key : String) : (valuesOf pairs key).Perm (valuesOf other key) :=
  (perm.filter _).filterMap _

end Groups

namespace Table

/-- The rows of a table that have a key, with their values. -/
def keyedRows (t : Table) (key value : String) :
    Except ColumnError (List (String × Option Binary64)) := do
  let i ← t.position key
  let values ← t.optionalColumn value
  return keyedValues (t.cellsAt i) values

theorem groupBy_eq (t : Table) (key value : String) :
    t.groupBy key value = (t.keyedRows key value).map Groups.collect := by
  unfold groupBy keyedRows
  cases t.position key with
  | error e => rfl
  | ok i => cases t.optionalColumn value <;> rfl

/-- The keys in a column that are not missing, in row order. -/
def presentKeys (t : Table) (key : String) : List String :=
  match t.position? key with
  | some i => (t.cellsAt i).filterMap groupKey?
  | none => []

theorem map_fst_filterMap_zip {α β γ : Type} (f : α → Option γ) {keys : List α} {values : List β}
    (same : values.length = keys.length) :
    ((keys.zip values).filterMap fun pair => (f pair.1).map (·, pair.2)).map Prod.fst =
      keys.filterMap f := by
  have long : keys.length ≤ values.length := same.symm ▸ Nat.le_refl _
  calc ((keys.zip values).filterMap fun pair => (f pair.1).map (·, pair.2)).map Prod.fst
      = (keys.zip values).filterMap (f ∘ Prod.fst) := by
        rw [List.map_filterMap]
        refine List.filterMap_congr fun pair _ => ?_
        rw [Option.map_map]
        exact Option.map_id'
    _ = keys.filterMap f := by rw [← List.filterMap_map, List.map_fst_zip long]

theorem map_fst_keyedValues {cells : List String} {values : List (Option Binary64)}
    (same : values.length = cells.length) :
    (keyedValues cells values).map Prod.fst = cells.filterMap groupKey? :=
  map_fst_filterMap_zip groupKey? same

theorem map_fst_of_keyedRows {t : Table} {key value : String}
    {pairs : List (String × Option Binary64)} (keyed : t.keyedRows key value = .ok pairs) :
    pairs.map Prod.fst = t.presentKeys key := by
  obtain ⟨i, place, keyed⟩ := bind_eq_ok keyed
  obtain ⟨values, read, keyed⟩ := bind_eq_ok keyed
  obtain ⟨j, -, cells⟩ := bind_eq_ok read
  cases keyed
  have same : values.length = (t.cellsAt i).length := by
    rw [length_of_numericCells cells, cellsAt, cellsAt, List.length_map, List.length_map]
  rw [map_fst_keyedValues same, presentKeys, position?_of_position place]

end Table

end BenchStats
