import BenchStats.Proofs.Number.Cells
import BenchStats.Proofs.Table.Positions

/-!
# Numeric columns by name and by position

A column is numeric if some of its cells hold something and all that they hold are numbers.  The
numeric columns of a table are looked up by their names, and a name stands for the first column that
has it.  So each column is shown as its own cells have it exactly if columns of one name do not
differ, and in particular where all names are distinct.
-/

namespace BenchStats

theorem eq_some_of_filterMap_eq_map {α β : Type} {f : α → Option β} {h : α → β} {xs : List α}
    (all : xs.filterMap f = xs.map h) : ∀ x ∈ xs, f x = some (h x) := by
  induction xs with
  | nil => simp
  | cons x rest inductionHypothesis =>
    cases kept : f x with
    | none =>
      have lengths := congrArg List.length all
      have fewer := List.length_filterMap_le f rest
      rw [List.filterMap_cons_none kept, List.length_map, List.length_cons] at lengths
      omega
    | some y =>
      rw [List.filterMap_cons_some kept, List.map_cons, List.cons.injEq] at all
      intro other member
      rcases List.mem_cons.1 member with rfl | inRest
      · rw [kept, all.1]
      · exact inductionHypothesis all.2 other inRest

namespace Table

/-- The values of the column that a name stands for, if it is numeric. -/
def numericColumn? (t : Table) (name : String) : Option (List Binary64) :=
  match t.optionalColumn name with
  | .error _ => none
  | .ok cells => if cells.all Option.isNone then none else some cells.reduceOption

/-- The names of the numeric columns, in header order. -/
def numericNames (t : Table) : List String := t.numericColumns.map Prod.fst

theorem numericColumns_eq (t : Table) :
    t.numericColumns = t.headers.filterMap fun name => (t.numericColumn? name).map (name, ·) := by
  refine List.filterMap_congr fun name _ => ?_
  unfold numericColumn?
  cases t.optionalColumn name with
  | error e => rfl
  | ok cells =>
    dsimp only
    split <;> rfl

@[simp] theorem mem_numericColumns_iff {t : Table} {name : String} {values : List Binary64} :
    (name, values) ∈ t.numericColumns ↔ name ∈ t.headers ∧ t.numericColumn? name = some values := by
  rw [numericColumns_eq, List.mem_filterMap]
  constructor
  · rintro ⟨other, inHeader, column⟩
    obtain ⟨found, numeric, same⟩ := Option.map_eq_some_iff.1 column
    cases same
    exact ⟨inHeader, numeric⟩
  · rintro ⟨inHeader, numeric⟩
    exact ⟨name, inHeader, by rw [numeric, Option.map_some]⟩

theorem numericNames_eq (t : Table) :
    t.numericNames = t.headers.filter fun name => (t.numericColumn? name).isSome := by
  rw [numericNames, numericColumns_eq, List.map_filterMap, ← List.filterMap_eq_filter]
  refine List.filterMap_congr fun name _ => ?_
  cases numeric : t.numericColumn? name <;> simp [Option.guard, numeric]

/-- A cell that holds nothing: a missing value, or any other spelling of not-a-number. -/
def isVoid (cell : String) : Bool :=
  Number.isMissing cell || (Number.read? cell).any (·.toBinary64.isNaN)

/-- The number that a cell holds; none where it holds nothing, or a text. -/
def cellNumber? (cell : String) : Option Binary64 :=
  if isVoid cell then none else (Number.read? cell).map Number.toBinary64

/-- The cells of a numeric column: at least one of them holds something, and those that do hold
numbers. -/
def AreNumeric (cells : List String) : Prop :=
  (∃ cell ∈ cells, isVoid cell = false) ∧
    ∀ cell ∈ cells, isVoid cell = false → (Number.read? cell).isSome = true

instance (cells : List String) : Decidable (AreNumeric cells) :=
  inferInstanceAs (Decidable (_ ∧ _))

/-- The numbers that the cells at a position hold, if these are the cells of a numeric column. -/
def numbersAt? (t : Table) (place : Nat) : Option (List Binary64) :=
  if AreNumeric (t.cellsAt place) then some ((t.cellsAt place).filterMap cellNumber?) else none

/-- The numeric columns with what their own cells hold, in header order. -/
def ownNumericColumns (t : Table) : List (String × List Binary64) :=
  t.headers.zipIdx.filterMap fun (name, place) => (t.numbersAt? place).map (name, ·)

section Cells

variable {cell : String} {cells : List String}

theorem numericCell_of_fits (fits : isVoid cell = false → (Number.read? cell).isSome = true)
    (column : String) (row : Nat) : numericCell column row cell = .ok (cellNumber? cell) := by
  unfold numericCell cellNumber? isVoid at *
  by_cases missing : Number.isMissing cell = true
  · simp [missing]
  · cases read : Number.read? cell with
    | none => simp [missing, read] at fits
    | some number => by_cases isNaN : number.toBinary64.isNaN = true <;> simp [missing, isNaN]

theorem fits_of_numericCell {column : String} {row : Nat} {value : Option Binary64}
    (read : numericCell column row cell = .ok value) (present : isVoid cell = false) :
    (Number.read? cell).isSome = true := by
  have notMissing : Number.isMissing cell = false := (Bool.or_eq_false_iff.1 present).1
  rw [numericCell, notMissing] at read
  cases held : Number.read? cell with
  | none => simp [held] at read
  | some number => rfl

theorem cellNumber?_eq_none_iff (fits : isVoid cell = false → (Number.read? cell).isSome = true) :
    cellNumber? cell = none ↔ isVoid cell = true := by
  unfold cellNumber?
  by_cases empty : isVoid cell = true
  · simp [empty]
  · have number := fits (Bool.not_eq_true _ ▸ empty)
    simp [empty, Option.isSome_iff_ne_none.1 number]

/-- Cells have a view if those that hold something hold numbers, and it is made of these. -/
theorem numericCells_eq_ok_iff {column : String} {row : Nat} {values : List (Option Binary64)} :
    numericCells column row cells = .ok values ↔
      (∀ cell ∈ cells, isVoid cell = false → (Number.read? cell).isSome = true) ∧
        values = cells.map cellNumber? := by
  have whole (fits : ∀ cell ∈ cells, isVoid cell = false → (Number.read? cell).isSome = true) :
      numericCells column row cells = .ok (cells.map cellNumber?) := by
    apply numericCells_eq_ok
    rw [List.forall₂_map_right_iff, List.forall₂_same]
    exact fun cell member row => numericCell_of_fits (fits cell member) column row
  constructor
  · intro read
    have fits : ∀ cell ∈ cells, isVoid cell = false → (Number.read? cell).isSome = true := by
      intro cell member
      obtain ⟨i, inside⟩ := List.mem_iff_getElem?.1 member
      obtain ⟨value, held, -⟩ := getElem?_of_numericCells read inside
      exact fits_of_numericCell held
    exact ⟨fits, Except.ok.inj (read.symm.trans (whole fits))⟩
  · rintro ⟨fits, rfl⟩
    exact whole fits

theorem all_isNone_iff
    (fits : ∀ cell ∈ cells, isVoid cell = false → (Number.read? cell).isSome = true) :
    (cells.map cellNumber?).all Option.isNone = true ↔ ¬ ∃ cell ∈ cells, isVoid cell = false := by
  rw [List.all_map, List.all_eq_true]
  constructor
  · rintro nothing ⟨cell, member, present⟩
    have void := (cellNumber?_eq_none_iff (fits cell member)).1
      (Option.isNone_iff_eq_none.1 (nothing cell member))
    rw [present] at void
    cases void
  · intro nothing cell member
    refine Option.isNone_iff_eq_none.2 ((cellNumber?_eq_none_iff (fits cell member)).2 ?_)
    by_contra present
    exact nothing ⟨cell, member, Bool.not_eq_true _ ▸ present⟩

end Cells

section Positions

variable {t : Table} {name : String}

/-- The values of a column are the numbers in the cells where its name first stands. -/
theorem numericColumn?_eq (inHeader : name ∈ t.headers) :
    t.numericColumn? name = t.numbersAt? (t.headers.idxOf name) := by
  have view : t.optionalColumn name = numericCells name 1 (t.cellsAt (t.headers.idxOf name)) := by
    rw [optionalColumn, position_eq_idxOf inHeader]
    rfl
  unfold numericColumn? numbersAt?
  rw [view]
  cases read : numericCells name 1 (t.cellsAt (t.headers.idxOf name)) with
  | error e =>
    rw [if_neg]
    rintro ⟨-, fits⟩
    cases read.symm.trans (numericCells_eq_ok_iff.2 ⟨fits, rfl⟩)
  | ok values =>
    obtain ⟨fits, rfl⟩ := numericCells_eq_ok_iff.1 read
    have nothing := all_isNone_iff fits
    dsimp only
    split
    next void => rw [if_neg fun numeric => nothing.1 void numeric.1]
    next filled =>
      rw [if_pos ⟨not_not.1 (mt nothing.2 filled), fits⟩]
      exact congrArg some List.filterMap_map

/-- The numeric columns are shown with the numbers where their names first stand. -/
theorem numericColumns_eq_zipIdx (t : Table) :
    t.numericColumns = t.headers.zipIdx.filterMap fun (name, _) =>
      (t.numbersAt? (t.headers.idxOf name)).map (name, ·) := by
  have names : t.headers = t.headers.zipIdx.map Prod.fst := (List.zipIdx_map_fst 0 t.headers).symm
  rw [numericColumns_eq]
  conv_lhs => rw [names, List.filterMap_map]
  refine List.filterMap_congr ?_
  rintro ⟨name, place⟩ member
  show (t.numericColumn? name).map (name, ·) = _
  rw [numericColumn?_eq (List.fst_mem_of_mem_zipIdx member)]

theorem filter_filterMap_zipIdx (names : List String) (name : String)
    (values : String × Nat → Option (List Binary64)) :
    (names.zipIdx.filterMap fun named => (values named).map (named.1, ·)).filter (·.1 = name) =
      (names.zipIdx.filter (·.1 = name)).filterMap fun named =>
        (values named).map (named.1, ·) := by
  rw [List.filter_filterMap, List.filterMap_filter]
  refine List.filterMap_congr fun named _ => ?_
  by_cases same : named.1 = name <;> cases values named <;> simp [same, Option.filter]

/-- Columns of one name are shown alike, so all are shown as they are if they do not differ. -/
theorem numericColumns_eq_own_iff (t : Table) :
    t.numericColumns = t.ownNumericColumns ↔
      ∀ name place, t.headers[place]? = some name →
        t.numbersAt? place = t.numbersAt? (t.headers.idxOf name) := by
  rw [numericColumns_eq_zipIdx, ownNumericColumns]
  constructor
  · intro same name place there
    have member : (name, place) ∈ t.headers.zipIdx.filter (·.1 = name) := by
      rw [List.mem_filter, List.mem_zipIdx_iff_getElem?]
      exact ⟨there, decide_eq_true rfl⟩
    have ofName := congrArg (List.filter (·.1 = name)) same
    rw [filter_filterMap_zipIdx t.headers name fun named => t.numbersAt? (t.headers.idxOf named.1),
      filter_filterMap_zipIdx t.headers name fun named => t.numbersAt? named.2] at ofName
    -- All columns of the name are shown with the numbers of the first one, or none of them is.
    have first : ∀ named ∈ t.headers.zipIdx.filter (·.1 = name),
        (t.numbersAt? (t.headers.idxOf named.1)).map (named.1, ·) =
          (t.numbersAt? (t.headers.idxOf name)).map (name, ·) := by
      intro named inFilter
      rw [of_decide_eq_true (List.mem_filter.1 inFilter).2]
    rw [List.filterMap_congr first] at ofName
    cases shown : t.numbersAt? (t.headers.idxOf name) with
    | none =>
      rw [shown, Option.map_none, List.filterMap_none] at ofName
      exact Option.map_eq_none_iff.1 (List.filterMap_eq_nil_iff.1 ofName.symm _ member)
    | some values =>
      rw [shown, Option.map_some, List.filterMap_eq_map'] at ofName
      have own := eq_some_of_filterMap_eq_map ofName.symm (name, place) member
      obtain ⟨others, held, same⟩ := Option.map_eq_some_iff.1 own
      cases same
      exact held
  · intro same
    refine List.filterMap_congr ?_
    rintro ⟨name, place⟩ member
    have agrees := same name place (List.mem_zipIdx_iff_getElem?.1 member)
    dsimp only
    rw [agrees]

end Positions

/-- The numeric columns are found by name, and shown with the numbers of the first column of that
name.  They are what the cells of each column itself hold exactly if columns of one name do not
differ, as they cannot where all names are distinct. -/
theorem numericColumns_by_position (t : Table) :
    (t.numericColumns = t.headers.zipIdx.filterMap fun (name, _) =>
      (t.numbersAt? (t.headers.idxOf name)).map (name, ·)) ∧
    (t.numericColumns = t.ownNumericColumns ↔
      ∀ i j name, t.headers[i]? = some name → t.headers[j]? = some name →
        t.numbersAt? i = t.numbersAt? j) ∧
    (t.headers.Nodup → t.numericColumns = t.ownNumericColumns) := by
  refine ⟨numericColumns_eq_zipIdx t, ?_, fun distinct => ?_⟩
  · rw [numericColumns_eq_own_iff]
    constructor
    · intro first i j name left right
      rw [first name i left, first name j right]
    · intro agree name place there
      have inHeader : name ∈ t.headers := List.mem_of_getElem? there
      refine agree place _ name there ?_
      rw [List.getElem?_eq_getElem (List.idxOf_lt_length_of_mem inHeader), List.getElem_idxOf]
  · refine (numericColumns_eq_own_iff t).2 fun name place there => ?_
    obtain ⟨inside, rfl⟩ := List.getElem?_eq_some_iff.1 there
    rw [distinct.idxOf_getElem place inside]

/-- A table with a column of numbers, one of texts, an empty one and one with a missing value. -/
def mixedTable : Table :=
  ⟨["x", "label", "gap", "y"], [["1", "a", "", "NAN"], ["-2", "3", "NA", "0.5"]]⟩

/-- Two columns of one name hold the same number, once as an integer and once with a point. -/
def agreeingTable : Table := ⟨["x", "x"], [["1", "1.0"], ["nan", "NAN"]]⟩

theorem numericColumns_by_position_mixed :
    mixedTable.numericColumns = mixedTable.ownNumericColumns ∧
      mixedTable.ownNumericColumns =
        [("x", [.ofInt 1, .ofInt (-2)]), ("y", [.ofRat false (1 / 2)])] ∧
      agreeingTable.numericColumns = agreeingTable.ownNumericColumns := by
  obtain ⟨-, -, own⟩ := numericColumns_by_position mixedTable
  obtain ⟨-, agreeing, -⟩ := numericColumns_by_position agreeingTable
  refine ⟨own (by decide), by decide +kernel, agreeing.2 ?_⟩
  have each : ∀ place < 2, agreeingTable.numbersAt? place = some [.ofInt 1] := by decide +kernel
  intro i j name left right
  obtain ⟨first, -⟩ := List.getElem?_eq_some_iff.1 left
  obtain ⟨second, -⟩ := List.getElem?_eq_some_iff.1 right
  rw [each i first, each j second]

/-- Two columns of one name that differ are both shown as the first one. -/
theorem not_numericColumns_own_repeated :
    ¬ ∀ t : Table, t.Rectangular → t.numericColumns = t.ownNumericColumns := by
  intro own
  have same := own ⟨["x", "x"], [["1", "2"]]⟩ (by decide)
  exact absurd same (by decide +kernel)

end Table

end BenchStats
