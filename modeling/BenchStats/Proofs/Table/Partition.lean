import BenchStats.Proofs.Table.Grouping
import BenchStats.Proofs.Text.Runs

/-!
# Groups are a stable partition

Grouping reads a key and a value from every row.  A row whose key cannot be used is dropped with its
value; all others go to the group of their key.  The groups come in the order in which their keys
first appear, the values of a group in the order of the rows, and each value is in one group once.
-/

namespace BenchStats

namespace Groups

/-- The values in groups, each with the key of its group. -/
def entries (groups : Groups) : List (String × Binary64) :=
  groups.flatMap fun (key, values) => values.map (key, ·)

/-- The values that rows have, each with the key of its row. -/
def presentValues (rows : List (String × Option Binary64)) : List (String × Binary64) :=
  rows.flatMap fun (key, value) => value.toList.map (key, ·)

theorem entries_add (key : String) (value : Option Binary64) (groups : Groups) :
    (entries (add key value groups)).Perm (entries groups ++ value.toList.map (key, ·)) := by
  induction groups with
  | nil => simp [add, entries]
  | cons group rest inductionHypothesis =>
    obtain ⟨name, values⟩ := group
    have split (values : List Binary64) (others : Groups) :
        entries ((name, values) :: others) = values.map (name, ·) ++ entries others := rfl
    rw [add]
    by_cases same : name = key
    · rw [if_pos same, split, split, List.map_append, List.append_assoc, List.append_assoc, ← same]
      exact List.perm_append_comm.append_left _
    · rw [if_neg same, split, split, List.append_assoc]
      exact inductionHypothesis.append_left _

/-- Collecting neither loses a value nor adds one. -/
theorem entries_collect (rows : List (String × Option Binary64)) :
    (entries (collect rows)).Perm (presentValues rows) := by
  induction rows using List.reverseRecOn with
  | nil => exact List.Perm.refl _
  | append_singleton others row inductionHypothesis =>
    have step : collect (others ++ [row]) = add row.1 row.2 (collect others) := by
      rw [collect, List.foldl_append]
      rfl
    have last : presentValues (others ++ [row]) =
        presentValues others ++ row.2.toList.map (row.1, ·) := by
      rw [presentValues, List.flatMap_append, List.flatMap_singleton]
      rfl
    rw [step, last]
    exact (entries_add row.1 row.2 (collect others)).trans (inductionHypothesis.append_right _)

end Groups

namespace Table

/-- A text without the blanks around it. -/
def trimmed (text : String) : String := String.ofList (Text.trim text.toList)

/-- Whether rows are grouped by a key: it is no missing value and no other spelling of
not-a-number. -/
def isUsableKey (key : String) : Bool :=
  !Number.isMissing key && !(Number.read? key).any (·.toBinary64.isNaN)

/-- Groups that hold the values of rows under their keys.  Every key that can be used has one group,
in the order of the first rows with that key, and every value of a row with such a key is in its
group, in the order of the rows; there is nothing else in them. -/
structure StablePartition (rows : List (String × Option Binary64)) (groups : Groups) : Prop where
  distinct : (groups.map Prod.fst).Nodup
  mem_keys : ∀ key, key ∈ groups.map Prod.fst ↔ isUsableKey key = true ∧ key ∈ rows.map Prod.fst
  ordered : (groups.map Prod.fst).Pairwise fun a b =>
    (rows.map Prod.fst).idxOf a < (rows.map Prod.fst).idxOf b
  values : ∀ key values, (key, values) ∈ groups →
    values = (rows.filter (·.1 = key)).filterMap Prod.snd
  conserved : (Groups.entries groups).Perm
    (Groups.presentValues (rows.filter fun row => isUsableKey row.1))

@[simp] theorem trimmed_trimmed (text : String) : trimmed (trimmed text) = trimmed text := by
  simp [trimmed]

theorem groupKey?_eq (cell : String) :
    groupKey? cell = if isUsableKey (trimmed cell) then some (trimmed cell) else none := by
  unfold groupKey? isUsableKey
  simp only [trimmed]
  split
  next missing => simp [missing]
  next present =>
    split
    next number read =>
      by_cases isNaN : number.toBinary64.isNaN = true
      · simp [read, isNaN]
      · simp [read, isNaN, present]
    next read => simp [read, present]

theorem keyedValues_eq (cells : List String) (values : List (Option Binary64)) :
    keyedValues cells values =
      ((cells.map trimmed).zip values).filter fun row => isUsableKey row.1 := by
  rw [keyedValues, List.zip_map_left, List.filter_map, ← List.filterMap_eq_filter,
    List.map_filterMap]
  refine List.filterMap_congr ?_
  rintro ⟨cell, value⟩ -
  show (groupKey? cell).map (·, value) = _
  rw [groupKey?_eq]
  by_cases usable : isUsableKey (trimmed cell) = true
  · simp [usable, Option.guard]
  · simp [usable, Option.guard]

/-- Collecting the rows whose keys can be used is a stable partition. -/
theorem stablePartition_collect (rows : List (String × Option Binary64)) :
    StablePartition rows (Groups.collect (rows.filter fun row => isUsableKey row.1)) := by
  have names : ((rows.filter fun row => isUsableKey row.1).map Prod.fst) =
      (rows.map Prod.fst).filter isUsableKey := by
    rw [List.filter_map]
    rfl
  have keys : (Groups.collect (rows.filter fun row => isUsableKey row.1)).map Prod.fst =
      (rows.map Prod.fst).eraseDups.filter isUsableKey := by
    rw [Groups.collect_eq, List.map_map, names, eraseDups_filter]
    exact List.map_id _
  refine { distinct := ?_, mem_keys := ?_, ordered := ?_, values := ?_, conserved := ?_ }
  · rw [keys]
    exact (nodup_eraseDups _).filter _
  · intro key
    rw [keys, List.mem_filter, List.mem_eraseDups, and_comm]
  · rw [keys]
    exact (pairwise_idxOf_eraseDups _).filter _
  · intro key values member
    have usable : isUsableKey key = true := by
      have inKeys : key ∈ (rows.map Prod.fst).eraseDups.filter isUsableKey :=
        keys ▸ List.mem_map_of_mem member
      exact (List.mem_filter.1 inKeys).2
    rw [Groups.collect_eq] at member
    obtain ⟨name, -, group⟩ := List.mem_map.1 member
    cases group
    rw [Groups.valuesOf, List.filter_filter]
    congr 1
    refine List.filter_congr fun row _ => ?_
    by_cases same : row.1 = key
    · simp [same, usable]
    · simp [same]
  · exact Groups.entries_collect _

/-- Grouping fails with the first column that cannot be read, whether or not the row that it cannot
be read in has a key. -/
theorem groupBy_eq_error_iff {t : Table} {key value : String} {e : ColumnError} :
    t.groupBy key value = .error e ↔
      key ∉ t.headers ∧ e = .missing key ∨ key ∈ t.headers ∧ t.optionalColumn value = .error e := by
  constructor
  · intro failed
    rcases bind_eq_error failed with noKey | ⟨i, place, failed⟩
    · by_cases inHeader : key ∈ t.headers
      · cases (position_eq_idxOf inHeader).symm.trans noKey
      · cases (position_of_absent inHeader).symm.trans noKey
        exact Or.inl ⟨inHeader, rfl⟩
    · have inHeader := mem_headers_of_position place
      rcases bind_eq_error failed with noColumn | ⟨values, -, failed⟩
      · exact Or.inr ⟨inHeader, noColumn⟩
      · cases failed
  · rintro (⟨absent, rfl⟩ | ⟨inHeader, noColumn⟩)
    · rw [groupBy, position_of_absent absent]
      rfl
    · rw [groupBy, position_eq_idxOf inHeader, noColumn]
      rfl

/-- Grouping fails if the key column is not there, or else with the error of the value column, which
may be that it is not there.  Otherwise the groups are a stable partition of the rows. -/
theorem groupBy_stable_partition (t : Table) (key value : String) :
    (∀ e, t.groupBy key value = .error e ↔
      key ∉ t.headers ∧ e = .missing key ∨
        key ∈ t.headers ∧ t.optionalColumn value = .error e) ∧
    (value ∉ t.headers → t.optionalColumn value = .error (.missing value)) ∧
    ∀ groups, t.groupBy key value = .ok groups → ∃ i values, t.position? key = some i ∧
      t.optionalColumn value = .ok values ∧ values.length = t.rows.length ∧
      StablePartition (((t.cellsAt i).map trimmed).zip values) groups ∧
      ∀ name ∈ groups.map Prod.fst, trimmed name = name := by
  refine ⟨fun e => groupBy_eq_error_iff, ?_, ?_⟩
  · intro absent
    rw [optionalColumn, position_of_absent absent]
    rfl
  · intro groups given
    obtain ⟨i, place, given⟩ := bind_eq_ok given
    obtain ⟨values, read, given⟩ := bind_eq_ok given
    cases given
    obtain ⟨j, -, cells⟩ := bind_eq_ok read
    have count : values.length = t.rows.length := by
      rw [length_of_numericCells cells, cellsAt, List.length_map]
    have partitioned := stablePartition_collect (((t.cellsAt i).map trimmed).zip values)
    rw [← keyedValues_eq] at partitioned
    refine ⟨i, values, position?_of_position place, read, count, partitioned, ?_⟩
    intro name member
    obtain ⟨-, inRows⟩ := (partitioned.mem_keys name).1 member
    obtain ⟨row, inZip, rfl⟩ := List.mem_map.1 inRows
    obtain ⟨cell, -, label⟩ := List.mem_map.1 (List.of_mem_zip inZip).1
    rw [← label, trimmed_trimmed]

/-- Rows with blanks around a key, a missing key, one that reads as not-a-number, and a missing
value. -/
def scatteredRows : List (List String) :=
  [[" b", "2"], ["NA", "7"], ["NAN", "1"], ["b ", "n/a"], ["10", "0.5"], ["b", "3"]]

theorem groupBy_stable_partition_scattered :
    groupBy ⟨["k", "v"], scatteredRows⟩ "k" "v" =
      .ok [("b", [.ofNat 2, .ofNat 3]), ("10", [.ofRat false (1 / 2)])] ∧
    StablePartition [("b", some (.ofNat 2)), ("NA", some (.ofNat 7)), ("NAN", some (.ofNat 1)),
        ("b", none), ("10", some (.ofRat false (1 / 2))), ("b", some (.ofNat 3))]
      [("b", [.ofNat 2, .ofNat 3]), ("10", [.ofRat false (1 / 2)])] := by
  have grouped : groupBy ⟨["k", "v"], scatteredRows⟩ "k" "v" =
      .ok [("b", [.ofNat 2, .ofNat 3]), ("10", [.ofRat false (1 / 2)])] := by decide +kernel
  have column : optionalColumn ⟨["k", "v"], scatteredRows⟩ "v" =
      .ok [some (.ofNat 2), some (.ofNat 7), some (.ofNat 1), none, some (.ofRat false (1 / 2)),
        some (.ofNat 3)] := by decide +kernel
  obtain ⟨i, values, place, read, -, partitioned, -⟩ :=
    (groupBy_stable_partition ⟨["k", "v"], scatteredRows⟩ "k" "v").2.2 _ grouped
  cases place
  cases column.symm.trans read
  have keys : (cellsAt ⟨["k", "v"], scatteredRows⟩ 0).map trimmed =
      ["b", "NA", "NAN", "b", "10", "b"] := by decide +kernel
  rw [keys] at partitioned
  exact ⟨grouped, partitioned⟩

end Table

end BenchStats
