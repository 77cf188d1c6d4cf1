import BenchStats.Proofs.Number.Written
import BenchStats.Proofs.Report.GroupOrder

/-!
# The order of groups with integer keys

Keys that are numbers are sorted by the floating-point numbers they are rounded to, and the sort is
stable.  For integers rounding keeps the order, but beyond `2 ^ 53` it makes different ones equal,
which then stay in the order in which they first appeared.  So integer keys come out in order
exactly if those that are rounded to one number have appeared in order.
-/

namespace BenchStats

section StableSort

variable {α : Type} {le : α → α → Bool}
  (trans : ∀ a b c, le a b = true → le b c = true → le a c = true)
  (total : ∀ a b, (le a b || le b a) = true)

include trans total

theorem filter_mergeSort {p : α → Bool} (tied : ∀ a b, p a = true → p b = true → le a b = true)
    (xs : List α) : (xs.mergeSort le).filter p = xs.filter p := by
  have ordered : (xs.filter p).Pairwise fun a b => le a b = true := by
    refine List.pairwise_of_forall_mem_list fun a inA b inB => ?_
    exact tied a b (List.mem_filter.1 inA).2 (List.mem_filter.1 inB).2
  have inSorted : (xs.filter p).Sublist (xs.mergeSort le) :=
    List.sublist_mergeSort trans total ordered List.filter_sublist
  have inFilter := inSorted.filter p
  simp only [List.filter_filter, Bool.and_self] at inFilter
  exact (inFilter.eq_of_length ((List.mergeSort_perm xs le).filter p).length_eq.symm).symm

/-- Of a relation that the order has between elements that do not tie, a stable sort leaves open
only whether it holds between those that do. -/
theorem pairwise_mergeSort_iff {r : α → α → Prop} {xs : List α}
    (strict : ∀ a ∈ xs, ∀ b ∈ xs, le b a = false → r a b) :
    (xs.mergeSort le).Pairwise r ↔
      xs.Pairwise fun a b => le a b = true → le b a = true → r a b := by
  rw [List.pairwise_iff_forall_sublist, List.pairwise_iff_forall_sublist]
  constructor
  · intro sorted a b inOrder ab _
    exact sorted (List.pair_sublist_mergeSort trans total ab inOrder)
  · intro tiesSorted a b inSorted
    have ab : le a b = true := (List.pairwise_mergeSort trans total xs).forall_sublist inSorted
    have member (c : α) (inPair : c ∈ [a, b]) : c ∈ xs :=
      List.mem_mergeSort.1 (inSorted.subset inPair)
    cases ba : le b a with
    | false => exact strict a (member a (by simp)) b (member b (by simp)) ba
    | true =>
      have reflexive (c : α) : le c c = true := by simpa using total c c
      have tied : ∀ c d, (le a c && le c a) = true → (le a d && le d a) = true → le c d = true := by
        intro c d tiedC tiedD
        rw [Bool.and_eq_true] at tiedC tiedD
        exact trans c a d tiedC.2 tiedD.1
      have inTies := inSorted.filter fun c => le a c && le c a
      rw [filter_mergeSort trans total tied xs] at inTies
      simp only [List.filter_cons, reflexive, ab, ba, Bool.and_self, if_true,
        List.filter_nil] at inTies
      exact tiesSorted (inTies.trans List.filter_sublist) ab ba

end StableSort

namespace Report

/-- A key that is the literal of an integer of 64 bits. -/
def IntegerKey (key : String) (value : Int64) : Prop := Number.read? key = some (.int value)

/-- Keys that are integers come in non-decreasing order. -/
def Nondecreasing (keys : List String) : Prop :=
  keys.Pairwise fun a b => ∀ i j, IntegerKey a i → IntegerKey b j → i ≤ j

/-- Keys that are integers come in non-decreasing order where they are rounded to one number. -/
def TiesNondecreasing (keys : List String) : Prop :=
  keys.Pairwise fun a b => numericKey? a = numericKey? b →
    ∀ i j, IntegerKey a i → IntegerKey b j → i ≤ j

theorem IntegerKey.numericKey?_eq {key : String} {value : Int64} (integer : IntegerKey key value) :
    numericKey? key = some (.ofInt value.toInt) := by
  rw [numericKey?, integer]
  rfl

@[simp]
theorem ofInt_ne_negativeZero (value : Int64) : Binary64.ofInt value.toInt ≠ .negativeZero :=
  fun vanished => Bool.false_ne_true (Binary64.ofRat_intCast_eq_negativeZero_iff.1 vanished).1

theorem totalLe_ofInt {i j : Int64} (le : i ≤ j) :
    (Binary64.ofInt i.toInt).totalLe (.ofInt j.toInt) = true := by
  refine Binary64.totalLe_of_le (Binary64.ofRat_le_ofRat false false ?_) (ofInt_ne_negativeZero j)
  exact_mod_cast Int64.le_iff_toInt_le.1 le

theorem IntegerKey.le {a b : String} {i j : Int64} (left : IntegerKey a i) (right : IntegerKey b j)
    (le : i ≤ j) : numericKeyLe a b = true := by
  rw [numericKeyLe, left.numericKey?_eq, right.numericKey?_eq]
  exact totalLe_ofInt le

/-- Integer keys are sorted up to those that tie. -/
theorem nondecreasing_sortKeys_iff {keys : List String}
    (integral : ∀ key ∈ keys, ∃ i, IntegerKey key i) :
    Nondecreasing (sortKeys keys) ↔ TiesNondecreasing keys := by
  have numeric : (keys.all fun key => (numericKey? key).isSome) = true := by
    rw [List.all_eq_true]
    intro key member
    obtain ⟨i, integer⟩ := integral key member
    rw [integer.numericKey?_eq]
    rfl
  have strict : ∀ a ∈ keys, ∀ b ∈ keys, numericKeyLe b a = false →
      ∀ i j, IntegerKey a i → IntegerKey b j → i ≤ j := by
    intro a _ b _ above i j left right
    rcases Int64.le_total i j with le | ge
    · exact le
    · rw [right.le left ge] at above
      cases above
  rw [Nondecreasing, sortKeys, if_pos numeric,
    pairwise_mergeSort_iff numericKeyLe_trans numericKeyLe_total strict, TiesNondecreasing,
    List.pairwise_iff_forall_sublist, List.pairwise_iff_forall_sublist]
  refine forall_congr' fun a => forall_congr' fun b => forall_congr' fun inOrder => ?_
  have isNumeric (key : String) (inPair : key ∈ [a, b]) : (numericKey? key).isSome = true :=
    List.all_eq_true.1 numeric key (inOrder.subset inPair)
  constructor
  · intro sorted same
    have tied : numericKeyLe a b = true ∧ numericKeyLe b a = true := by
      rw [numericKeyLe, numericKeyLe, same]
      exact ⟨decide_eq_true (Int.le_refl _), decide_eq_true (Int.le_refl _)⟩
    exact sorted tied.1 tied.2
  · intro tiesSorted ab ba
    exact tiesSorted (numericKey?_eq_of_le (isNumeric a (by simp)) (isNumeric b (by simp)) ab ba)

/-- Keys up to `2 ^ 53` are not rounded. -/
theorem IntegerKey.eq_of_tie {a b : String} {i j : Int64} (left : IntegerKey a i)
    (right : IntegerKey b j) (few : i.toInt.natAbs ≤ 2 ^ 53) (few' : j.toInt.natAbs ≤ 2 ^ 53)
    (same : numericKey? a = numericKey? b) : i = j := by
  rw [left.numericKey?_eq, right.numericKey?_eq, Option.some.injEq] at same
  have value := Binary64.value?_ofRat_of_digits false i.toInt 0 few (by decide) (by decide)
  have value' := Binary64.value?_ofRat_of_digits false j.toInt 0 few' (by decide) (by decide)
  rw [zpow_zero, mul_one] at value value'
  have equal : (i.toInt : Rat) = j.toInt :=
    Option.some.inj (value.symm.trans ((congrArg Binary64.value? same).trans value'))
  exact Int64.toInt_inj.1 (by exact_mod_cast equal)

@[simp] theorem cellsAt_groupReport (key : String) (pairs : List (String × Option Binary64)) :
    (groupReport key pairs).cellsAt 0 = sortKeys (pairs.map Prod.fst).eraseDups := by
  rw [groupReport, Table.cellsAt, List.map_map]
  exact List.map_id _

theorem tiesNondecreasing_of_few {keys : List String}
    (few : ∀ key ∈ keys, ∀ i, IntegerKey key i → i.toInt.natAbs ≤ 2 ^ 53) :
    TiesNondecreasing keys := by
  refine List.pairwise_of_forall_mem_list fun a inA b inB same i j left right => ?_
  rw [left.eq_of_tie right (few a inA i left) (few b inB j right) same]
  exact Int64.le_refl j

/-- In a report on groups with integer keys the first column has each of them once.  They come in
order exactly if those that are rounded to one number first appeared in order, so up to `2 ^ 53`
they always do. -/
theorem groups_in_numeric_order (t : Table) (key value : String) (report : Table)
    (given : groups t key value = .ok report)
    (integral : ∀ name ∈ t.presentKeys key, ∃ i, IntegerKey name i) :
    (report.cellsAt 0).Perm (t.presentKeys key).eraseDups ∧
      (Nondecreasing (report.cellsAt 0) ↔ TiesNondecreasing (t.presentKeys key).eraseDups) ∧
      ((∀ name ∈ t.presentKeys key, ∀ i, IntegerKey name i → i.toInt.natAbs ≤ 2 ^ 53) →
        Nondecreasing (report.cellsAt 0)) := by
  rw [groups_eq] at given
  cases keyed : t.keyedRows key value with
  | error e =>
    rw [keyed] at given
    cases given
  | ok pairs =>
    rw [keyed] at given
    cases given
    have inKeys {name : String} : name ∈ (t.presentKeys key).eraseDups → name ∈ t.presentKeys key :=
      List.mem_eraseDups.1
    have sorted := nondecreasing_sortKeys_iff fun name member => integral name (inKeys member)
    rw [cellsAt_groupReport, Table.map_fst_of_keyedRows keyed]
    refine ⟨sortKeys_perm _, sorted, fun few => sorted.2 (tiesNondecreasing_of_few ?_)⟩
    exact fun name member => few name (inKeys member)

/-- Rows with integer keys that are not in order, one with blanks around it, and a missing key. -/
def integerRows : List (List String) := [["10", "1"], [" 2", "4"], ["NA", "7"], ["-5", ""]]

theorem groups_in_numeric_order_signed : ∃ report,
    groups ⟨["k", "v"], integerRows⟩ "k" "v" = .ok report ∧ Nondecreasing (report.cellsAt 0) := by
  have keys : Table.presentKeys ⟨["k", "v"], integerRows⟩ "k" = ["10", "2", "-5"] := by
    decide +kernel
  have integers : ∀ name ∈ ["10", "2", "-5"],
      ∃ i, IntegerKey name i ∧ i.toInt.natAbs ≤ 2 ^ 53 := by
    intro name member
    simp only [List.mem_cons, List.not_mem_nil, or_false] at member
    rcases member with rfl | rfl | rfl
    · exact ⟨10, by unfold IntegerKey; decide +kernel, by decide⟩
    · exact ⟨2, by unfold IntegerKey; decide +kernel, by decide⟩
    · exact ⟨-5, by unfold IntegerKey; decide +kernel, by decide⟩
  obtain ⟨report, given⟩ : ∃ report, groups ⟨["k", "v"], integerRows⟩ "k" "v" = .ok report := by
    have keyed : Table.keyedRows ⟨["k", "v"], integerRows⟩ "k" "v" =
        .ok [("10", some (.ofNat 1)), ("2", some (.ofNat 4)), ("-5", none)] := by decide +kernel
    rw [groups_eq, keyed]
    exact ⟨_, rfl⟩
  have integral : ∀ name ∈ Table.presentKeys ⟨["k", "v"], integerRows⟩ "k",
      ∃ i, IntegerKey name i := by
    rw [keys]
    intro name member
    obtain ⟨i, integer, -⟩ := integers name member
    exact ⟨i, integer⟩
  obtain ⟨-, -, inOrder⟩ :=
    groups_in_numeric_order ⟨["k", "v"], integerRows⟩ "k" "v" report given integral
  refine ⟨report, given, inOrder ?_⟩
  rw [keys]
  intro name member i integer
  obtain ⟨j, integer', few⟩ := integers name member
  cases integer.symm.trans integer'
  exact few

/-- Rows with two integer keys that are rounded to one number, the greater one first. -/
def collidingRows : List (List String) := [["9007199254740993", "1"], ["9007199254740992", "2"]]

/-- These keep the order in which they appear. -/
theorem not_groups_in_numeric_order_colliding :
    ¬ ∀ (t : Table) (key value : String) (report : Table), groups t key value = .ok report →
      (∀ name ∈ t.presentKeys key, ∃ i, IntegerKey name i) → Nondecreasing (report.cellsAt 0) := by
  intro inOrder
  have greater : IntegerKey "9007199254740993" 9007199254740993 := by
    unfold IntegerKey
    decide +kernel
  have less : IntegerKey "9007199254740992" 9007199254740992 := by
    unfold IntegerKey
    decide +kernel
  have integral : ∀ name ∈ ["9007199254740993", "9007199254740992"], ∃ i, IntegerKey name i := by
    intro name member
    simp only [List.mem_cons, List.not_mem_nil, or_false] at member
    rcases member with rfl | rfl
    · exact ⟨_, greater⟩
    · exact ⟨_, less⟩
  have keyed : Table.keyedRows ⟨["k", "v"], collidingRows⟩ "k" "v" =
      .ok [("9007199254740993", some (.ofNat 1)), ("9007199254740992", some (.ofNat 2))] := by
    decide +kernel
  have keys : Table.presentKeys ⟨["k", "v"], collidingRows⟩ "k" =
      ["9007199254740993", "9007199254740992"] := (Table.map_fst_of_keyedRows keyed).symm
  have given : groups ⟨["k", "v"], collidingRows⟩ "k" "v" = .ok (groupReport "k"
      [("9007199254740993", some (.ofNat 1)), ("9007199254740992", some (.ofNat 2))]) := by
    rw [groups_eq, keyed]
    rfl
  have distinct : ["9007199254740993", "9007199254740992"].eraseDups =
      ["9007199254740993", "9007199254740992"] := by decide +kernel
  have sorted := inOrder _ _ _ _ given (by rw [keys]; exact integral)
  rw [cellsAt_groupReport, List.map_cons, List.map_cons, List.map_nil, distinct,
    nondecreasing_sortKeys_iff integral] at sorted
  have tied : numericKey? "9007199254740993" = numericKey? "9007199254740992" := by decide +kernel
  have ordered := List.rel_of_pairwise_cons sorted (List.mem_singleton_self _) tied _ _ greater less
  exact absurd ordered (by decide)

end Report

end BenchStats
