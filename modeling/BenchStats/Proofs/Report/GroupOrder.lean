import BenchStats.Proofs.Report.Reordering
import BenchStats.Proofs.Table.Grouping
import BenchStats.Report.Groups

/-!
# Statistics of groups do not depend on the order

When the rows of a table come in another order, the groups are found in another order and so are
their values.  The same keys are left, every group has the same statistics, and sorting the keys
brings the rows of the report into one order, unless two keys tie that are not the same text.
-/

namespace BenchStats

theorem rel_map {α β γ δ : Type} {r : α → β → Prop} {s : γ → δ → Prop} {f : α → γ} {g : β → δ}
    (each : ∀ a b, r a b → s (f a) (g b)) {x : Option α} {y : Option β}
    (related : Option.Rel r x y) : Option.Rel s (x.map f) (y.map g) := by
  cases related with
  | none => exact Option.Rel.none
  | some here => exact Option.Rel.some (each _ _ here)

namespace Table

theorem mapM_zip {α β γ : Type} (read : α → Option β) (label : α → γ) (xs : List α) :
    (xs.mapM read).map ((xs.map label).zip ·) =
      xs.mapM fun x => (read x).map (label x, ·) := by
  induction xs with
  | nil => rfl
  | cons x rest inductionHypothesis =>
    rw [List.mapM_cons, List.mapM_cons, ← inductionHypothesis]
    cases read x with
    | none => rfl
    | some y => cases rest.mapM read <;> rfl

theorem toOption_keyedRows {t : Table} {key value : String} {i j : Nat}
    (keyPlace : t.position? key = some i) (valuePlace : t.position? value = some j) :
    (t.keyedRows key value).toOption =
      (t.rows.mapM fun row => (cellValue? (row.getD j "")).map (row.getD i "", ·)).map
        (·.filterMap fun (cell, read) => (groupKey? cell).map (·, read)) := by
  have cells : (numericCells value 1 (t.cellsAt j)).toOption =
      t.rows.mapM fun row => cellValue? (row.getD j "") := by
    rw [toOption_numericCells]
    exact List.mapM_map
  rw [← mapM_zip, ← cells]
  unfold keyedRows optionalColumn position
  rw [keyPlace, valuePlace]
  show (numericCells value 1 (t.cellsAt j) >>= fun values =>
    Except.ok (keyedValues (t.cellsAt i) values)).toOption = _
  cases numericCells value 1 (t.cellsAt j) <;> rfl

theorem keyedRows_of_absent {t : Table} {key value : String}
    (absent : t.position? key = none ∨ t.position? value = none) :
    (t.keyedRows key value).toOption = none := by
  unfold keyedRows optionalColumn position
  rcases absent with absent | absent
  · rw [absent]
    rfl
  · rw [absent]
    cases t.position? key <;> rfl

theorem Reordered.keyedRows {t u : Table} (reordered : t.Reordered u) (key value : String) :
    Option.Rel List.Perm (t.keyedRows key value).toOption (u.keyedRows key value).toOption := by
  have keyPlace := reordered.position?_eq key
  have valuePlace := reordered.position?_eq value
  cases place : u.position? key with
  | none =>
    rw [keyedRows_of_absent (Or.inl (keyPlace.trans place)), keyedRows_of_absent (Or.inl place)]
    exact Option.Rel.none
  | some i =>
    cases place' : u.position? value with
    | none =>
      rw [keyedRows_of_absent (Or.inr (valuePlace.trans place')),
        keyedRows_of_absent (Or.inr place')]
      exact Option.Rel.none
    | some j =>
      rw [toOption_keyedRows (keyPlace.trans place) (valuePlace.trans place'),
        toOption_keyedRows place place']
      exact rel_map (fun _ _ perm => perm.filterMap _) (mapM_perm _ reordered.rows)

end Table

namespace Report

def sortKeys (keys : List String) : List String :=
  if keys.all fun key => (numericKey? key).isSome then keys.mergeSort numericKeyLe
  else keys.mergeSort textKeyLe

theorem sortGroups_eq (groups : Groups) :
    sortGroups groups =
      if groups.all fun group => (numericKey? group.1).isSome then
        groups.mergeSort fun a b => numericKeyLe a.1 b.1
      else groups.mergeSort fun a b => textKeyLe a.1 b.1 := rfl

theorem sortGroups_map (keys : List String) (values : String → List Binary64) :
    sortGroups (keys.map fun key => (key, values key)) =
      (sortKeys keys).map fun key => (key, values key) := by
  have sameTest : ((keys.map fun key => (key, values key)).all
      fun group => (numericKey? group.1).isSome) =
        keys.all fun key => (numericKey? key).isSome := by
    rw [List.all_map]
    rfl
  rw [sortGroups_eq, sortKeys, sameTest]
  split
  next =>
    symm
    exact List.map_mergeSort fun _ _ _ _ => rfl
  next =>
    symm
    exact List.map_mergeSort fun _ _ _ _ => rfl

@[simp] theorem sortKeys_perm (keys : List String) : (sortKeys keys).Perm keys := by
  unfold sortKeys
  split <;> exact List.mergeSort_perm _ _

@[simp] theorem textKeyLe_iff {a b : String} : textKeyLe a b = true ↔ a ≤ b := by
  rw [textKeyLe, decide_eq_true_eq, String.not_lt]

theorem sortedByText (keys : List String) :
    (keys.mergeSort textKeyLe).Pairwise fun a b => textKeyLe a b = true := by
  apply List.pairwise_mergeSort
  · intro a b c ab bc
    exact textKeyLe_iff.2 (String.le_trans (textKeyLe_iff.1 ab) (textKeyLe_iff.1 bc))
  · intro a b
    rw [Bool.or_eq_true, textKeyLe_iff, textKeyLe_iff]
    exact String.le_total a b

theorem numericKeyLe_trans (a b c : String) (ab : numericKeyLe a b = true)
    (bc : numericKeyLe b c = true) : numericKeyLe a c = true := Binary64.totalLe_trans ab bc

theorem numericKeyLe_total (a b : String) : (numericKeyLe a b || numericKeyLe b a) = true :=
  Binary64.totalLe_total _ _

theorem sortedByNumber (keys : List String) :
    (keys.mergeSort numericKeyLe).Pairwise fun a b => numericKeyLe a b = true :=
  List.pairwise_mergeSort numericKeyLe_trans numericKeyLe_total keys

theorem numericKey?_eq_of_le {a b : String} (numeric : (numericKey? a).isSome = true)
    (numeric' : (numericKey? b).isSome = true) (ab : numericKeyLe a b = true)
    (ba : numericKeyLe b a = true) : numericKey? a = numericKey? b := by
  obtain ⟨x, value⟩ := Option.isSome_iff_exists.1 numeric
  obtain ⟨y, value'⟩ := Option.isSome_iff_exists.1 numeric'
  rw [numericKeyLe, value, value'] at ab ba
  have same : x = y := by
    apply Binary64.totalKey_injective
    exact Int.le_antisymm (of_decide_eq_true ab) (of_decide_eq_true ba)
  rw [value, value', same]

/-- The order of keys is settled by what they are, if one is a text or no two of them tie. -/
theorem sortKeys_eq_of_perm {keys other : List String} (perm : keys.Perm other)
    (settled : (∃ key ∈ keys, numericKey? key = none) ∨
      ∀ a ∈ keys, ∀ b ∈ keys, numericKey? a = numericKey? b → a = b) :
    sortKeys keys = sortKeys other := by
  have permuted := ((sortKeys_perm keys).trans perm).trans (sortKeys_perm other).symm
  unfold sortKeys at permuted ⊢
  rw [← perm.all_eq] at permuted ⊢
  split at permuted
  next numeric =>
    have isNumeric := List.all_eq_true.1 numeric
    have distinct := settled.resolve_left fun ⟨key, member, text⟩ => by
      have impossible := isNumeric key member
      rw [text] at impossible
      cases impossible
    rw [if_pos numeric, if_pos numeric]
    refine permuted.eq_of_pairwise ?_ (sortedByNumber keys) (sortedByNumber other)
    intro a b member member' ab ba
    have inKeys := List.mem_mergeSort.1 member
    have inKeys' := perm.mem_iff.2 (List.mem_mergeSort.1 member')
    exact distinct a inKeys b inKeys'
      (numericKey?_eq_of_le (isNumeric a inKeys) (isNumeric b inKeys') ab ba)
  next mixed =>
    rw [if_neg mixed, if_neg mixed]
    refine permuted.eq_of_pairwise ?_ (sortedByText keys) (sortedByText other)
    intro a b _ _ ab ba
    exact String.le_antisymm (textKeyLe_iff.1 ab) (textKeyLe_iff.1 ba)

/-- The row of a key in the report on groups. -/
def groupRow (pairs : List (String × Option Binary64)) (key : String) : List String :=
  key :: groupCells (Summary.ofSeries (Groups.valuesOf pairs key))

theorem groupRow_eq_of_perm {pairs other : List (String × Option Binary64)}
    (perm : pairs.Perm other) : groupRow pairs = groupRow other := by
  funext key
  have numbers := (Groups.valuesOf_perm perm key).filter (!·.isNaN)
  rw [groupRow, groupRow, Summary.ofSeries_eq_of_perm numbers]

/-- The report on the groups of pairs: one row for each key, in the order of the keys. -/
def groupReport (key : String) (pairs : List (String × Option Binary64)) : Table :=
  ⟨key :: groupStatistics, (sortKeys (pairs.map Prod.fst).eraseDups).map (groupRow pairs)⟩

theorem groups_eq (t : Table) (key value : String) :
    groups t key value = (ReportError.ofColumn (t.keyedRows key value)).map (groupReport key) := by
  unfold groups
  rw [Table.groupBy_eq]
  cases t.keyedRows key value with
  | error e => rfl
  | ok pairs =>
    show Except.ok _ = Except.ok (groupReport key pairs)
    rw [Groups.collect_eq, sortGroups_map, List.map_map]
    rfl

theorem groupReport_rows_perm {pairs other : List (String × Option Binary64)} (key : String)
    (perm : other.Perm pairs) : (groupReport key other).rows.Perm (groupReport key pairs).rows := by
  have sameKeys := eraseDups_perm (perm.map Prod.fst)
  have permuted := ((sortKeys_perm _).trans sameKeys).trans (sortKeys_perm _).symm
  rw [groupReport, groupReport, groupRow_eq_of_perm perm]
  exact permuted.map _

theorem groupReport_eq_of_perm {pairs other : List (String × Option Binary64)} (key : String)
    (perm : other.Perm pairs)
    (settled : (∃ name ∈ pairs.map Prod.fst, numericKey? name = none) ∨
      ∀ a ∈ pairs.map Prod.fst, ∀ b ∈ pairs.map Prod.fst,
        numericKey? a = numericKey? b → a = b) :
    groupReport key other = groupReport key pairs := by
  have sameKeys := eraseDups_perm (perm.map Prod.fst)
  have settledDistinct :
      (∃ name ∈ (pairs.map Prod.fst).eraseDups, numericKey? name = none) ∨
        ∀ a ∈ (pairs.map Prod.fst).eraseDups, ∀ b ∈ (pairs.map Prod.fst).eraseDups,
          numericKey? a = numericKey? b → a = b := by
    simpa only [List.mem_eraseDups] using settled
  rw [groupReport, groupReport, groupRow_eq_of_perm perm,
    sortKeys_eq_of_perm sameKeys.symm settledDistinct]

/-- When the rows of a table come in another order, statistics of its groups are given for both or
for none, with the same header and the same rows up to their order.  The order is the same too if
one of the present keys is a text, or if no two different ones are the same number. -/
theorem groups_order_independent (t : Table) (rows : List (List String)) (key value : String)
    (perm : rows.Perm t.rows) :
    ((∃ report, groups ⟨t.headers, rows⟩ key value = .ok report) ↔
      ∃ report, groups t key value = .ok report) ∧
    ∀ report other, groups t key value = .ok report →
      groups ⟨t.headers, rows⟩ key value = .ok other →
      other.headers = report.headers ∧ other.rows.Perm report.rows ∧
      ((∃ name ∈ t.presentKeys key, numericKey? name = none) ∨
        (∀ a ∈ t.presentKeys key, ∀ b ∈ t.presentKeys key,
          numericKey? a = numericKey? b → a = b) → other = report) := by
  have reordered : Table.Reordered ⟨t.headers, rows⟩ t := ⟨rfl, perm⟩
  rw [groups_eq, groups_eq]
  rcases cases_of_toOption (reordered.keyedRows key value) with
    ⟨e, e', failed, failed'⟩ | ⟨found, pairs, keyed, keyed', samePairs⟩
  · rw [failed, failed']
    exact ⟨⟨nofun, nofun⟩, nofun⟩
  · have present := Table.map_fst_of_keyedRows keyed'
    rw [keyed, keyed', ← present]
    refine ⟨⟨fun _ => ⟨_, rfl⟩, fun _ => ⟨_, rfl⟩⟩, ?_⟩
    rintro report other ⟨⟩ ⟨⟩
    exact ⟨rfl, groupReport_rows_perm key samePairs, groupReport_eq_of_perm key samePairs⟩

/-- Rows with a key that is a text, one with blanks around it, a missing key and a missing value. -/
def mixedRows : List (List String) :=
  [["b", "2"], [" 10", "0.5"], ["NA", "7"], ["10 ", ""], ["b", "1"]]

theorem groups_order_independent_text_key :
    ∃ report, groups ⟨["k", "v"], mixedRows⟩ "k" "v" = .ok report ∧
      groups ⟨["k", "v"], [["10 ", ""], ["b", "1"], ["NA", "7"], ["b", "2"], [" 10", "0.5"]]⟩
        "k" "v" = .ok report := by
  have perm : [["10 ", ""], ["b", "1"], ["NA", "7"], ["b", "2"], [" 10", "0.5"]].Perm
      mixedRows := by decide
  have keyed : Table.keyedRows ⟨["k", "v"], mixedRows⟩ "k" "v" =
      .ok [("b", some (.ofRat false 2)), ("10", some (.ofRat false (1 / 2))), ("10", none),
        ("b", some (.ofRat false 1))] := by decide +kernel
  have text : ∃ name ∈ Table.presentKeys ⟨["k", "v"], mixedRows⟩ "k", numericKey? name = none :=
    ⟨"b", by decide +kernel, by decide +kernel⟩
  obtain ⟨report, given⟩ : ∃ report, groups ⟨["k", "v"], mixedRows⟩ "k" "v" = .ok report := by
    rw [groups_eq, keyed]
    exact ⟨_, rfl⟩
  obtain ⟨succeeds, same⟩ := groups_order_independent ⟨["k", "v"], mixedRows⟩ _ "k" "v" perm
  obtain ⟨other, given'⟩ := succeeds.2 ⟨report, given⟩
  obtain ⟨-, -, equal⟩ := same report other given given'
  exact ⟨report, given, given'.trans (congrArg Except.ok (equal (Or.inl text)))⟩

end Report

end BenchStats
