import BenchStats.Table.Basic
import Mathlib.Data.List.Basic

/-!
# Positions of names in a header

A name stands for the first column that has it.  Where every row is as wide as the header, a
position in the header is one in every row.
-/

namespace BenchStats.Table

variable {t : Table} {name : String}

@[simp] theorem position?_eq_none_iff : t.position? name = none ↔ name ∉ t.headers := by
  rw [position?, List.findIdx?_eq_none_iff]
  constructor
  · intro different inHeader
    simpa using different name inHeader
  · intro absent other inHeader
    have different : other ≠ name := fun same => absent (same ▸ inHeader)
    simpa using different

@[simp] theorem position_of_absent (absent : name ∉ t.headers) :
    t.position name = .error (.missing name) := by
  rw [position, position?_eq_none_iff.2 absent]

theorem position_eq_idxOf (inHeader : name ∈ t.headers) :
    t.position name = .ok (t.headers.idxOf name) := by
  have found : t.position? name = some (t.headers.idxOf name) :=
    List.findIdx?_eq_some_of_exists ⟨name, inHeader, beq_self_eq_true name⟩
  rw [position, found]

theorem position?_of_position {i : Nat} (place : t.position name = .ok i) :
    t.position? name = some i := by
  unfold position at place
  split at place
  next found =>
    cases place
    exact found
  next => cases place

theorem mem_headers_of_position {i : Nat} (place : t.position name = .ok i) :
    name ∈ t.headers := by
  by_contra absent
  cases (position_of_absent absent).symm.trans place

theorem hasColumn_of_column {values : List Binary64} (read : t.column name = .ok values) :
    t.hasColumn name = true := by
  by_contra absent
  rw [hasColumn, Option.not_isSome_iff_eq_none, position?_eq_none_iff] at absent
  rw [column, optionalColumn, position_of_absent absent] at read
  cases read

theorem Rectangular.position_lt (rectangular : t.Rectangular) {i : Nat}
    (place : t.position name = .ok i) {row : List String} (member : row ∈ t.rows) :
    i < row.length := by
  have found := position?_of_position place
  rw [position?, List.findIdx?_eq_some_iff_getElem] at found
  obtain ⟨inside, -⟩ := found
  rw [rectangular row member]
  exact inside

end BenchStats.Table
