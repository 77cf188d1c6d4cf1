import BenchStats.Proofs.Distinct
import BenchStats.Table.Records

/-!
# Records with a member for every column

The record of a row has one member for each different header, so every cell is in it under its
header exactly if the headers are distinct.
-/

namespace BenchStats

namespace Members

variable {α : Type}

theorem set_of_not_mem {key : String} {members : Members α} (new : key ∉ members.map Prod.fst)
    (value : α) : set key value members = members ++ [(key, value)] := by
  induction members with
  | nil => rfl
  | cons head rest inductionHypothesis =>
    rw [List.map_cons, List.mem_cons, not_or] at new
    rw [set, if_neg (Ne.symm new.1), inductionHypothesis new.2, List.cons_append]

/-- The members that are left when the given ones are set one after the other. -/
def setAll (members : List (String × α)) : Members α :=
  members.foldl (fun all (key, value) => set key value all) []

@[simp] theorem setAll_concat (members : List (String × α)) (key : String) (value : α) :
    setAll (members ++ [(key, value)]) = set key value (setAll members) := by
  rw [setAll, List.foldl_append]
  rfl

@[simp] theorem keys_setAll (members : List (String × α)) :
    (setAll members).map Prod.fst = (members.map Prod.fst).eraseDups := by
  induction members using List.reverseRecOn with
  | nil => rfl
  | append_singleton others member inductionHypothesis =>
    obtain ⟨key, value⟩ := member
    rw [setAll_concat, keys_set, inductionHypothesis, List.map_append, List.map_singleton,
      eraseDups_concat]
    simp only [List.mem_eraseDups]

@[simp]
theorem setAll_of_nodup {members : List (String × α)} (distinct : (members.map Prod.fst).Nodup) :
    setAll members = members := by
  induction members using List.reverseRecOn with
  | nil => rfl
  | append_singleton others member inductionHypothesis =>
    obtain ⟨key, value⟩ := member
    rw [List.map_append, List.map_singleton, List.nodup_append] at distinct
    obtain ⟨othersDistinct, -, apart⟩ := distinct
    have kept := inductionHypothesis othersDistinct
    have new : key ∉ (setAll others).map Prod.fst := by
      rw [kept]
      exact fun member => apart key member key List.mem_cons_self rfl
    rw [setAll_concat, set_of_not_mem new, kept]

/-- All members are kept exactly if their keys are distinct. -/
@[simp] theorem setAll_eq_self_iff {members : List (String × α)} :
    setAll members = members ↔ (members.map Prod.fst).Nodup := by
  constructor
  · intro kept
    rw [← kept]
    simp
  · exact setAll_of_nodup

end Members

namespace Table

/-- The record of every row has one member for each column, with the cell that stands there. -/
def KeepsCells (t : Table) : Prop :=
  t.toRecords = .array (t.rows.map fun row => .object (t.headers.zip (row.map jsonCell)))

@[simp] theorem ofMembers_eq_object_iff {members : List (String × Json)} :
    Json.ofMembers members = .object members ↔ (members.map Prod.fst).Nodup := by
  rw [← Members.setAll_eq_self_iff, Json.ofMembers, Json.object.injEq]
  rfl

theorem keepsCells_iff {t : Table} (rectangular : t.Rectangular) :
    t.KeepsCells ↔ t.rows = [] ∨ t.headers.Nodup := by
  have each {row : List String} (member : row ∈ t.rows) :
      Json.ofMembers (t.headers.zip (row.map jsonCell)) =
        .object (t.headers.zip (row.map jsonCell)) ↔ t.headers.Nodup := by
    have wide : (row.map jsonCell).length = t.headers.length := by
      rw [List.length_map, rectangular row member]
    have keys : (t.headers.zip (row.map jsonCell)).map Prod.fst = t.headers :=
      List.map_fst_zip (Nat.le_of_eq wide.symm)
    simp [keys]
  unfold KeepsCells toRecords
  rw [Json.array.injEq, List.map_inj_left]
  cases rows : t.rows with
  | nil => simp
  | cons first rest =>
    have firstMember : first ∈ t.rows := rows ▸ List.mem_cons_self
    constructor
    · intro kept
      exact Or.inr ((each firstMember).1 (kept first List.mem_cons_self))
    · rintro (none | distinct) row member
      · cases none
      · exact (each (rows ▸ member)).2 distinct

end Table

end BenchStats
