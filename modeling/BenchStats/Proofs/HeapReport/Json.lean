import BenchStats.HeapReport.Basic
import BenchStats.Proofs.Json.Compact
import BenchStats.Proofs.Json.Readable
import BenchStats.Proofs.Outcome
import Mathlib.Data.List.Nodup

/-!
# Reports read back from JSON

The compact JSON text of a report is read value by value.  Integers come back as they were, and a
finite number comes back as one, though the reader may round it once more.  What is not finite is
written as `null`, which is no number, so one such value makes the whole text unreadable.
-/

namespace BenchStats

namespace Number

/-! ### Single numbers -/

/-- The number that the JSON text of a number denotes. -/
def throughJson? (value : Number) : Option Number := do
  let tree ← JsonTree.read? (Json.number value).compact
  tree.number?

theorem throughJson?_eq (value : Number) :
    value.throughJson? = (Json.numberTree value).number? := by
  rw [throughJson?, JsonTree.read?_compact, Json.toTree]
  rfl

theorem throughJson?_of_literal {value : Number} {literal : JsonNumber}
    (written : JsonNumber.ofNumber? value = some literal) :
    value.throughJson? = literal.value? := by
  rw [throughJson?_eq, Json.numberTree, written]
  rfl

@[simp] theorem throughJson?_int (value : Int64) : (int value).throughJson? = some (int value) :=
  (throughJson?_of_literal rfl).trans (JsonNumber.value?_of_int rfl)

@[simp] theorem throughJson?_of_not_finite {x : Binary64} (notFinite : x.isFinite = false) :
    (float x).throughJson? = none := by
  have noLiteral : JsonNumber.ofNumber? (float x) = none :=
    JsonNumber.ofNumber?_eq_none_iff.2 ⟨x, rfl, notFinite⟩
  rw [throughJson?_eq, Json.numberTree, noLiteral]
  rfl

theorem exists_throughJson?_of_finite {x : Binary64} (finite : x.isFinite = true) :
    ∃ y, (float x).throughJson? = some (float y) := by
  cases written : JsonNumber.ofNumber? (float x) with
  | none =>
    obtain ⟨y, same, notFinite⟩ := JsonNumber.ofNumber?_eq_none_iff.1 written
    cases same
    rw [finite] at notFinite
    cases notFinite
  | some literal =>
    obtain ⟨y, value⟩ :=
      Option.isSome_iff_exists.1 (JsonNumber.isSome_floatValue?_of_float written)
    rw [throughJson?_of_literal written, JsonNumber.value?_of_float written, value]
    exact ⟨y, rfl⟩

theorem throughJson?_of_exact {x : Binary64} {literal : JsonNumber}
    (written : JsonNumber.ofNumber? (float x) = some literal)
    (few : literal.decimal.digits ≤ 2 ^ 53) (near : literal.decimal.exponent.natAbs ≤ 22) :
    (float x).throughJson? = some (float x) := by
  rw [throughJson?_of_literal written, JsonNumber.value?_of_float written,
    JsonNumber.floatValue?_of_exact few near, JsonNumber.ofDecimal_of_float written,
    Option.map_some]

/-- What a number comes back as: an integer as itself, a finite number as the one that its own
JSON text denotes, and anything else not at all. -/
inductive ComesBack : Number → Number → Prop
  | int (value : Int64) : ComesBack (.int value) (.int value)
  | float {x y : Binary64} (finite : x.isFinite = true)
      (denoted : (Number.float x).throughJson? = some (.float y)) : ComesBack (.float x) (.float y)

theorem throughJson?_eq_some_iff {value value' : Number} :
    value.throughJson? = some value' ↔ ComesBack value value' := by
  constructor
  · intro read
    cases value with
    | int value =>
      rw [throughJson?_int] at read
      cases read
      exact .int value
    | float x =>
      cases finite : x.isFinite with
      | false =>
        rw [throughJson?_of_not_finite finite] at read
        cases read
      | true =>
        obtain ⟨y, denoted⟩ := exists_throughJson?_of_finite finite
        rw [denoted] at read
        cases read
        exact .float finite denoted
  · rintro (value | ⟨-, denoted⟩)
    · exact throughJson?_int value
    · exact denoted

theorem isSome_throughJson?_iff {value : Number} :
    value.throughJson?.isSome = true ↔ ∀ x, value = .float x → x.isFinite = true := by
  constructor
  · rintro read x rfl
    obtain ⟨value', denoted⟩ := Option.isSome_iff_exists.1 read
    cases throughJson?_eq_some_iff.1 denoted with
    | float finite _ => exact finite
  · intro finite
    cases value with
    | int value => simp
    | float x =>
      obtain ⟨y, denoted⟩ := exists_throughJson?_of_finite (finite x rfl)
      rw [denoted, Option.isSome_some]

theorem comesBack_self_iff {value : Number} :
    ComesBack value value ↔ ∀ x, value = .float x → (float x).throughJson? = some (float x) := by
  rw [← throughJson?_eq_some_iff]
  constructor
  · rintro same x rfl
    exact same
  · intro same
    cases value with
    | int value => exact throughJson?_int value
    | float x => exact same x rfl

end Number

namespace JsonTree

theorem uniqueMember?_of_mem {members : List (Option String × JsonTree)} {name : String}
    {value : JsonTree} (distinct : (members.map Prod.fst).Nodup)
    (member : (some name, value) ∈ members) : uniqueMember? members name = some value := by
  have found : members.filter (·.1 = some name) = [(some name, value)] := by
    induction members with
    | nil => exact absurd member List.not_mem_nil
    | cons first rest inductionHypothesis =>
      rw [List.map_cons, List.nodup_cons] at distinct
      rcases List.mem_cons.1 member with rfl | behind
      · have others : rest.filter (·.1 = some name) = [] := by
          rw [List.filter_eq_nil_iff]
          intro other inRest
          rw [decide_eq_true_eq]
          intro sameName
          have inKeys := List.mem_map_of_mem (f := Prod.fst) inRest
          rw [sameName] at inKeys
          exact distinct.1 inKeys
        rw [List.filter_cons_of_pos (by simp), others]
      · have otherName : first.1 ≠ some name := fun sameName =>
          distinct.1 (sameName ▸ List.mem_map_of_mem behind)
        rw [List.filter_cons_of_neg (by simp [otherName])]
        exact inductionHypothesis distinct.2 behind
  rw [uniqueMember?, found]

theorem fields?_object {names : List String} {trees : List JsonTree} (distinct : names.Nodup)
    (same : names.length = trees.length) :
    (object ((names.map some).zip trees)).fields? names = some trees := by
  have keys : ((names.map some).zip trees).map Prod.fst = names.map some :=
    List.map_fst_zip (by rw [List.length_map, same])
  have distinctKeys : (((names.map some).zip trees).map Prod.fst).Nodup := by
    rw [keys]
    exact List.Nodup.map (Option.some_injective String) distinct
  have named : ((names.map some).zip trees).all (·.1.isSome) = true := by
    rw [List.all_eq_true]
    intro member inObject
    have key : member.1 ∈ names.map some := keys ▸ List.mem_map_of_mem inObject
    obtain ⟨name, -, isKey⟩ := List.mem_map.1 key
    rw [← isKey, Option.isSome_some]
  rw [fields?, if_pos named, mapM_eq_some_iff, List.forall₂_iff_zip]
  refine ⟨same, fun {name tree} paired => uniqueMember?_of_mem distinctKeys ?_⟩
  rw [List.zip_map_left]
  exact List.mem_map_of_mem paired

end JsonTree

namespace Snapshot

/-- A snapshot that is read value by value. -/
def throughJson? (snapshot : Snapshot) : Option Snapshot := do
  let values ← snapshot.values.mapM Number.throughJson?
  ofValues? values

@[simp] theorem ofValues?_eq_some_iff {values : List Number} {snapshot : Snapshot} :
    ofValues? values = some snapshot ↔ values = snapshot.values := by
  constructor
  · intro read
    unfold ofValues? at read
    split at read
    next => rw [← Option.some.inj read, Snapshot.values]
    next => cases read
  · rintro rfl
    exact ofValues?_values snapshot

theorem isSome_ofValues?_of_length {values : List Number}
    (six : values.length = columns.length) : (ofValues? values).isSome = true := by
  match values with
  | [_, _, _, _, _, _] => rfl

theorem throughJson?_eq_some_iff {snapshot snapshot' : Snapshot} :
    snapshot.throughJson? = some snapshot' ↔
      List.Forall₂ Number.ComesBack snapshot.values snapshot'.values := by
  simp only [throughJson?, Option.bind_eq_bind, Option.bind_eq_some_iff, ofValues?_eq_some_iff,
    exists_eq_right, mapM_eq_some_iff, Number.throughJson?_eq_some_iff]

theorem isSome_throughJson?_iff {snapshot : Snapshot} :
    snapshot.throughJson?.isSome = true ↔
      ∀ x, .float x ∈ snapshot.values → x.isFinite = true := by
  have each : (∀ value ∈ snapshot.values, value.throughJson?.isSome = true) ↔
      ∀ x, .float x ∈ snapshot.values → x.isFinite = true := by
    simp only [Number.isSome_throughJson?_iff]
    exact ⟨fun finite x member => finite _ member x rfl,
      fun finite value member x same => finite x (same ▸ member)⟩
  rw [← each, ← isSome_mapM_iff, throughJson?]
  cases read : snapshot.values.mapM Number.throughJson? with
  | none => simp
  | some values =>
    have length := (mapM_eq_some_iff.1 read).length_eq
    simp [isSome_ofValues?_of_length (length.symm.trans (length_values snapshot))]

end Snapshot

namespace HeapReport

@[simp] theorem jsonKeys_nodup : jsonKeys.Nodup := by decide

/-- A snapshot is written as an object with one number for each of its values. -/
def snapshotJson (snapshot : Snapshot) : Json :=
  .object (jsonKeys.zip (snapshot.values.map .number))

@[simp] theorem toTree_snapshotJson (snapshot : Snapshot) :
    (snapshotJson snapshot).toTree =
      .object ((jsonKeys.map some).zip (snapshot.values.map Json.numberTree)) := by
  have pairs : (fun member : String × Json => (some member.1, member.2.toTree)) =
      Prod.map some Json.toTree := rfl
  have trees : snapshot.values.map Json.numberTree =
      (snapshot.values.map Json.number).map Json.toTree := by
    rw [List.map_map]
    exact List.map_congr_left fun value _ => by rw [Function.comp_apply, Json.toTree]
  rw [snapshotJson, Json.toTree, Json.memberTrees_eq_map, pairs, trees, List.zip_map]

@[simp] theorem snapshotOfTree?_snapshotJson (snapshot : Snapshot) :
    snapshotOfTree? (snapshotJson snapshot).toTree = snapshot.throughJson? := by
  have number : JsonTree.number? ∘ Json.numberTree = Number.throughJson? :=
    funext fun value => (Number.throughJson?_eq value).symm
  rw [toTree_snapshotJson, snapshotOfTree?, JsonTree.fields?_object jsonKeys_nodup rfl]
  simp only [Option.bind_eq_bind, Option.bind_some, List.mapM_map, number, Snapshot.throughJson?]

/-- A report is read from its JSON text snapshot by snapshot. -/
theorem ofJson?_toJson (report : HeapReport) :
    ofJson? report.toJson.compact = (report.snapshots.mapM Snapshot.throughJson?).map mk := by
  have written : report.toJson.toTree =
      .object ((["records"].map some).zip
        [.array (report.snapshots.map fun snapshot => (snapshotJson snapshot).toTree)]) := by
    rw [toJson, Json.toTree, Json.memberTrees_eq_map, List.map_singleton]
    dsimp only
    rw [Json.toTree, Json.elementTrees_eq_map, List.map_map]
    rfl
  have snapshots : (snapshotOfTree? ∘ fun snapshot => (snapshotJson snapshot).toTree) =
      Snapshot.throughJson? := funext snapshotOfTree?_snapshotJson
  rw [ofJson?, JsonTree.read?_compact, written]
  simp only [Option.bind_eq_bind, Option.bind_some]
  rw [JsonTree.fields?_object (List.nodup_singleton _) rfl]
  simp only [Option.bind_some, JsonTree.elements?, List.mapM_map, snapshots]
  rw [Option.map_eq_bind]
  rfl

/-- A report comes back as what its numbers come back as. -/
theorem ofJson?_eq_some_iff {report report' : HeapReport} :
    ofJson? report.toJson.compact = some report' ↔
      List.Forall₂ (fun snapshot snapshot' =>
        List.Forall₂ Number.ComesBack snapshot.values snapshot'.values)
        report.snapshots report'.snapshots := by
  simp only [← Snapshot.throughJson?_eq_some_iff]
  rw [← mapM_eq_some_iff, ofJson?_toJson, Option.map_eq_some_iff]
  constructor
  · rintro ⟨snapshots, read, rfl⟩
    exact read
  · exact fun read => ⟨report'.snapshots, read, rfl⟩

theorem isSome_ofJson?_iff {report : HeapReport} :
    (ofJson? report.toJson.compact).isSome = true ↔
      ∀ snapshot ∈ report.snapshots, ∀ x, .float x ∈ snapshot.values → x.isFinite = true := by
  rw [ofJson?_toJson, Option.isSome_map, isSome_mapM_iff]
  simp only [Snapshot.isSome_throughJson?_iff]

/-- The JSON text of a report can be read exactly if all of its numbers are finite.  The report
that is read has the same number of snapshots, the same integers, and for each floating-point
number the one that its own JSON text denotes; so it is the same if each of these is.  Such a number
is the same at least where the digits of its literal, without the point, are at most `2 ^ 53` and
are scaled by at most the twenty-second power of ten. -/
theorem reports_through_json (report : HeapReport) :
    ((ofJson? report.toJson.compact).isSome = true ↔
      ∀ snapshot ∈ report.snapshots, ∀ x, .float x ∈ snapshot.values → x.isFinite = true) ∧
    (∀ report' : HeapReport, ofJson? report.toJson.compact = some report' ↔
      List.Forall₂ (fun snapshot snapshot' =>
        List.Forall₂ Number.ComesBack snapshot.values snapshot'.values)
        report.snapshots report'.snapshots) ∧
    (ofJson? report.toJson.compact = some report ↔
      ∀ snapshot ∈ report.snapshots, ∀ x, .float x ∈ snapshot.values →
        (Number.float x).throughJson? = some (.float x)) ∧
    ∀ (x : Binary64) (literal : JsonNumber), JsonNumber.ofNumber? (.float x) = some literal →
      literal.decimal.digits ≤ 2 ^ 53 → literal.decimal.exponent.natAbs ≤ 22 →
      (Number.float x).throughJson? = some (.float x) := by
  refine ⟨isSome_ofJson?_iff, fun report' => ofJson?_eq_some_iff, ?_, ?_⟩
  · simp only [ofJson?_eq_some_iff, List.forall₂_same, Number.comesBack_self_iff]
    exact ⟨fun same snapshot inReport x member => same snapshot inReport _ member x rfl,
      fun same snapshot inReport value member x float =>
        same snapshot inReport x (float ▸ member)⟩
  · exact fun x literal => Number.throughJson?_of_exact

/-- A time in fractions, a negative zero and the least integer come back; an infinity beside them
takes all of them with it. -/
theorem reports_through_json_measured :
    ofJson? (toJson ⟨[⟨.int 1, .float (.ofRat false (13 / 2)), .float .negativeZero,
      .int Int64.minValue, .int 4, .int 5⟩]⟩).compact =
        some ⟨[⟨.int 1, .float (.ofRat false (13 / 2)), .float .negativeZero,
          .int Int64.minValue, .int 4, .int 5⟩]⟩ ∧
    ofJson? (toJson ⟨[⟨.int 1, .float (.infinite false), .int 0, .int 0, .int 0,
      .int 0⟩]⟩).compact = none := by
  constructor
  · obtain ⟨-, -, same, exact⟩ := reports_through_json
      ⟨[⟨.int 1, .float (.ofRat false (13 / 2)), .float .negativeZero, .int Int64.minValue,
        .int 4, .int 5⟩]⟩
    have fraction := exact (.ofRat false (13 / 2)) ⟨false, ['6'], ['5'], none⟩
      (by decide +kernel) (by decide) (by decide)
    have zero := exact .negativeZero ⟨true, ['0'], ['0'], none⟩
      (by decide +kernel) (by decide) (by decide)
    refine same.2 ?_
    simp [Snapshot.values, fraction, zero]
  · obtain ⟨readable, -⟩ := reports_through_json
      ⟨[⟨.int 1, .float (.infinite false), .int 0, .int 0, .int 0, .int 0⟩]⟩
    rw [← Option.not_isSome_iff_eq_none, readable]
    intro finite
    exact absurd (finite _ List.mem_cons_self (.infinite false) (by decide)) (by decide)

/-- An infinity is read from a heap report, but not from the JSON text that it is written as. -/
theorem not_read_back_of_infinity :
    ¬ ∀ (text : String) (report : HeapReport), read? text = .ok report →
      ofJson? report.toJson.compact = some report := by
  intro readBack
  have accepted : read? "1 inf 0 0 0 0" =
      .ok ⟨[⟨.int 1, .float (.infinite false), .int 0, .int 0, .int 0, .int 0⟩]⟩ := by
    decide +kernel
  have finite := isSome_ofJson?_iff.1 (Option.isSome_of_eq_some (readBack _ _ accepted))
  exact absurd (finite _ List.mem_cons_self (.infinite false) (by decide)) (by decide)

end HeapReport

end BenchStats
