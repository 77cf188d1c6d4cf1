import BenchStats.Proofs.Decimal.Text
import BenchStats.Proofs.Outcome
import BenchStats.Proofs.Text.Runs
import BenchStats.Table.Basic

/-!
# Numbers in cells

Integers are written as numerals, and a layout that keeps the point never writes one, so the two
kinds of numbers are told apart when a cell is read.  A cell that is read as a number holds a value.
-/

namespace BenchStats.Number

theorem read?_of_solid {cell : String} (solid : ∀ c ∈ cell.toList, Text.isBlank c = false) :
    read? cell = ofToken? cell.toList := by
  rw [read?, Text.trim_of_solid solid]

theorem isNaN_of_missingSpelling :
    ∀ spelling ∈ missingSpellings,
      (ofToken? spelling.toList).all (fun number => number.toBinary64.isNaN) = true := by
  decide

theorem isMissing_of_read? {cell : String} {number : Number} (read : read? cell = some number)
    (value : number.toBinary64.isNaN = false) : isMissing cell = false := by
  rw [read?] at read
  rw [isMissing]
  simp only [Bool.or_eq_false_iff]
  constructor
  · have blank : ofToken? [] = none := by decide
    cases token : Text.trim cell.toList with
    | nil =>
      rw [token, blank] at read
      simp at read
    | cons => rfl
  · refine List.any_eq_false.2 fun spelling member spelled => ?_
    have missing := isNaN_of_missingSpelling spelling member
    rw [of_decide_eq_true spelled, read, Option.all_some, value] at missing
    exact Bool.false_ne_true missing

@[simp] theorem isNaN_of_isInt {value : Number} (isInt : value.isInt = true) :
    value.toBinary64.isNaN = false := by
  cases value with
  | int value => exact Binary64.isNaN_ofRat false value.toInt
  | float value => exact absurd isInt Bool.false_ne_true

@[simp]
theorem read?_intText (value : Int64) : read? (intText value.toInt) = some (.int value) := by
  have numeral := isNumeral_intText value.toInt
  rw [read?_of_solid numeral.solid, ofToken?_of_isNumeral numeral]

theorem readInt?_cellText {layout : Decimal.Layout} (keeps : layout.keepsPoint = true)
    (x : Binary64) : readInt? (layout.cellText x).toList = none := by
  cases x with
  | nan => exact (by decide : readInt? "".toList = none)
  | infinite negative =>
    cases negative with
    | true => exact (by decide : readInt? "-inf".toList = none)
    | false => exact (by decide : readInt? "inf".toList = none)
  | finite negative x =>
    obtain ⟨d, read, -⟩ := Decimal.literal?_text layout
      (Decimal.natAbs_leadingExponent_shortest_lt layout.tie x)
    have signed : Decimal.takeSign ((if negative then ['-'] else []) ++
        layout.text (Decimal.shortest layout.tie x)) =
          (negative, layout.text (Decimal.shortest layout.tie x)) :=
      Decimal.takeSign_signed negative read
    obtain ⟨c, member, noDigit⟩ :=
      Decimal.exists_mem_text_not_digit keeps (Decimal.shortest layout.tie x)
    have someOther : (layout.text (Decimal.shortest layout.tie x)).all Char.isDigit = false :=
      List.all_eq_false.2 ⟨c, member, by simp [noDigit]⟩
    rw [Decimal.Layout.cellText, String.toList_ofList, Decimal.Layout.finiteText, readInt?]
    simp only [signed, someOther, Bool.not_false, Bool.or_true, if_true]

theorem solid_cellText (layout : Decimal.Layout) (x : Binary64) :
    ∀ c ∈ (layout.cellText x).toList, Text.isBlank c = false := by
  cases x with
  | nan => exact Text.solid_of_any (by decide : "".toList.any Text.isBlank = false)
  | infinite negative =>
    cases negative with
    | true => exact Text.solid_of_any (by decide : "-inf".toList.any Text.isBlank = false)
    | false => exact Text.solid_of_any (by decide : "inf".toList.any Text.isBlank = false)
  | finite negative x =>
    intro c member
    rw [Decimal.Layout.cellText, String.toList_ofList, Decimal.Layout.finiteText] at member
    rcases List.mem_append.1 member with sign | body
    · cases negative with
      | true =>
        rw [List.mem_singleton.1 sign]
        decide
      | false => simp at sign
    · rcases Decimal.mem_text body with digit | mark
      · exact Text.isBlank_of_isDigit digit
      · exact Text.solid_of_any (by decide) c mark

theorem read?_cellText {layout : Decimal.Layout} (keeps : layout.keepsPoint = true) {x : Binary64}
    (number : x.isNaN = false) : read? (layout.cellText x) = some (.float x) := by
  rw [read?_of_solid (solid_cellText layout x), ofToken?, readInt?_cellText keeps,
    Decimal.read?_cellText layout number]
  rfl

end BenchStats.Number

namespace BenchStats.Table

theorem numericCell_of_read? {cell : String} {number : Number} (column : String) (row : Nat)
    (read : Number.read? cell = some number) (value : number.toBinary64.isNaN = false) :
    numericCell column row cell = .ok (some number.toBinary64) := by
  rw [numericCell, Number.isMissing_of_read? read value]
  simp [read, value]

theorem numericCells_eq_ok {cells : List String} {values : List (Option Binary64)}
    {column : String}
    (each : List.Forall₂ (fun cell value => ∀ row, numericCell column row cell = .ok value) cells
      values) (row : Nat) : numericCells column row cells = .ok values := by
  induction each generalizing row with
  | nil => rfl
  | cons first rest inductionHypothesis =>
    rw [numericCells, first row, inductionHypothesis (row + 1)]
    rfl

theorem numericCells_cons_eq_ok {cell : String} {rest : List String}
    {values : List (Option Binary64)} {column : String} {row : Nat}
    (read : numericCells column row (cell :: rest) = .ok values) :
    ∃ value others, values = value :: others ∧ numericCell column row cell = .ok value ∧
      numericCells column (row + 1) rest = .ok others := by
  rw [numericCells] at read
  obtain ⟨value, firstRead, read⟩ := bind_eq_ok read
  obtain ⟨others, restRead, read⟩ := bind_eq_ok read
  cases read
  exact ⟨value, others, rfl, firstRead, restRead⟩

theorem length_of_numericCells {cells : List String} {values : List (Option Binary64)}
    {column : String} {start : Nat} (read : numericCells column start cells = .ok values) :
    values.length = cells.length := by
  induction cells generalizing start values with
  | nil =>
    cases read
    rfl
  | cons cell rest inductionHypothesis =>
    obtain ⟨value, others, rfl, -, restRead⟩ := numericCells_cons_eq_ok read
    rw [List.length_cons, List.length_cons, inductionHypothesis restRead]

/-- The view of cells has an entry for each of them, which is what the cell holds. -/
theorem getElem?_of_numericCells {cells : List String} {values : List (Option Binary64)}
    {column : String} {start : Nat} (read : numericCells column start cells = .ok values)
    {i : Nat} {cell : String} (member : cells[i]? = some cell) :
    ∃ value, numericCell column (start + i) cell = .ok value ∧ values[i]? = some value := by
  induction cells generalizing start values i with
  | nil => simp at member
  | cons first rest inductionHypothesis =>
    obtain ⟨value, others, rfl, firstRead, restRead⟩ := numericCells_cons_eq_ok read
    cases i with
    | zero =>
      cases member
      exact ⟨value, firstRead, rfl⟩
    | succ i =>
      obtain ⟨other, cellRead, entry⟩ := inductionHypothesis restRead member
      exact ⟨other, by rw [← cellRead]; congr 1; omega, entry⟩

theorem exists_error_of_numericCells {cells : List String} {column : String} {start : Nat}
    {e : ColumnError} (failed : numericCells column start cells = .error e) :
    ∃ i cell, cells[i]? = some cell ∧ numericCell column (start + i) cell = .error e := by
  induction cells generalizing start with
  | nil => cases failed
  | cons first rest inductionHypothesis =>
    rw [numericCells] at failed
    obtain firstFailed | ⟨_, -, failed⟩ := bind_eq_error failed
    · exact ⟨0, first, rfl, firstFailed⟩
    obtain restFailed | ⟨_, -, impossible⟩ := bind_eq_error failed
    · obtain ⟨i, cell, member, cellRead⟩ := inductionHypothesis restFailed
      exact ⟨i + 1, cell, member, by rw [← cellRead]; congr 1; omega⟩
    · cases impossible

theorem error_of_numericCell {column cell : String} {row : Nat} {e : ColumnError}
    (failed : numericCell column row cell = .error e) : e = .nonNumeric column row cell := by
  unfold numericCell at failed
  split at failed
  next => cases failed
  next =>
    split at failed
    next => cases failed
    next =>
      cases failed
      rfl

end BenchStats.Table
