import BenchStats.Proofs.Number.Written
import BenchStats.Proofs.Table.NumericColumns

/-!
# Views without integers

A token that is an integer of 64 bits is read as one and rounded when it is used.  Reading every
token as a floating-point number at once gives the same numbers and the same errors, except that a
literal of zero then keeps its minus sign.
-/

namespace BenchStats

namespace Binary64

/-- A number without the sign that zero may have. -/
def unsignedZero (x : Binary64) : Binary64 := if x = .negativeZero then .zero else x

@[simp] theorem unsignedZero_unsignedZero (x : Binary64) :
    x.unsignedZero.unsignedZero = x.unsignedZero := by
  unfold unsignedZero
  split <;> rfl

@[simp] theorem isNaN_unsignedZero (x : Binary64) : x.unsignedZero.isNaN = x.isNaN :=
  Number.isNaN_unsigned x

end Binary64

namespace Number

theorem toBinary64_of_isIntegerLiteral {token : List Char} {value : Int64}
    (literal : IsIntegerLiteral token value.toInt) :
    ∃ direct, Binary64.read? token = some direct ∧
      (Number.int value).toBinary64 = direct.unsignedZero ∧
      (direct = .negativeZero ↔ token.head? = some '-' ∧ value.toInt = 0) := by
  refine ⟨_, read?_of_isIntegerLiteral literal, toBinary64_int_of_ofRat rfl, ?_⟩
  rw [Binary64.ofRat_intCast_eq_negativeZero_iff, decide_eq_true_eq]

/-- Both ways of reading a token agree, but for the sign of zero. -/
@[simp] theorem map_unsignedZero_ofToken? (token : List Char) :
    (ofToken? token).map (·.toBinary64.unsignedZero) =
      (Binary64.read? token).map Binary64.unsignedZero := by
  rw [ofToken?]
  cases read : readInt? token with
  | none =>
    rw [Option.map_map]
    rfl
  | some value =>
    obtain ⟨direct, directly, same, -⟩ :=
      toBinary64_of_isIntegerLiteral (readInt?_eq_some_iff.1 read)
    simp [directly, same]

end Number

namespace Table

/-- The value of a cell in a numeric column whose cells are all read as floating-point numbers. -/
def directCell (column : String) (row : Nat) (cell : String) :
    Except ColumnError (Option Binary64) :=
  if Number.isMissing cell then .ok none
  else match Binary64.read? (Text.trim cell.toList) with
    | some x => .ok (if x.isNaN then none else some x)
    | none => .error (.nonNumeric column row cell)

def directOptionalColumn (t : Table) (name : String) :
    Except ColumnError (List (Option Binary64)) := do
  let i ← t.position name
  ((t.cellsAt i).zipIdx 1).mapM fun (cell, row) => directCell name row cell

def directColumn (t : Table) (name : String) : Except ColumnError (List Binary64) :=
  (t.directOptionalColumn name).map (·.reduceOption)

/-- The values that the view of a column shows, if there are any. -/
def shownValues? : Except ColumnError (List (Option Binary64)) → Option (List Binary64)
  | .error _ => none
  | .ok cells => if cells.all Option.isNone then none else some cells.reduceOption

def directNumericColumns (t : Table) : List (String × List Binary64) :=
  t.headers.filterMap fun name => (shownValues? (t.directOptionalColumn name)).map (name, ·)

@[simp] theorem map_unsignedZero_numericCell (column : String) (row : Nat) (cell : String) :
    (numericCell column row cell).map (Option.map Binary64.unsignedZero) =
      (directCell column row cell).map (Option.map Binary64.unsignedZero) := by
  have alike := Number.map_unsignedZero_ofToken? (Text.trim cell.toList)
  rw [numericCell, directCell, Number.read?]
  split
  next => rfl
  next =>
    cases read : Number.ofToken? (Text.trim cell.toList) with
    | none =>
      rw [read, Option.map_none] at alike
      rw [Option.map_eq_none_iff.1 alike.symm]
    | some number =>
      rw [read, Option.map_some] at alike
      obtain ⟨x, directly, same⟩ := Option.map_eq_some_iff.1 alike.symm
      have isNaN : number.toBinary64.isNaN = x.isNaN := by
        rw [← Binary64.isNaN_unsignedZero, ← same, Binary64.isNaN_unsignedZero]
      rw [directly]
      simp only [isNaN]
      cases x.isNaN with
      | true => rfl
      | false => exact congrArg (fun y => Except.ok (some y)) same.symm

theorem numericCells_eq_mapM (column : String) (start : Nat) (cells : List String) :
    numericCells column start cells =
      (cells.zipIdx start).mapM fun (cell, row) => numericCell column row cell := by
  induction cells generalizing start with
  | nil => rfl
  | cons cell rest inductionHypothesis =>
    rw [numericCells, List.zipIdx_cons, List.mapM_cons, inductionHypothesis]

section Values

variable (view : Except ColumnError (List (Option Binary64))) (change : Binary64 → Binary64)

theorem map_reduceOption_view :
    (view.map (·.reduceOption)).map (List.map change) =
      (view.map (List.map (Option.map change))).map (·.reduceOption) := by
  cases view with
  | error e => rfl
  | ok cells => exact congrArg Except.ok List.reduceOption_map.symm

theorem map_shownValues? :
    (shownValues? view).map (List.map change) =
      shownValues? (view.map (List.map (Option.map change))) := by
  cases view with
  | error e => rfl
  | ok cells =>
    have missing : (cells.map (Option.map change)).all Option.isNone = cells.all Option.isNone := by
      rw [List.all_map]
      refine List.all_congr rfl fun value => ?_
      exact Option.isNone_map
    show _ = shownValues? (.ok (cells.map (Option.map change)))
    unfold shownValues?
    simp only [missing, List.reduceOption_map]
    split <;> rfl

end Values

theorem map_unsignedZero_optionalColumn (t : Table) (name : String) :
    (t.optionalColumn name).map (List.map (Option.map Binary64.unsignedZero)) =
      (t.directOptionalColumn name).map (List.map (Option.map Binary64.unsignedZero)) := by
  unfold optionalColumn directOptionalColumn
  cases t.position name with
  | error e => rfl
  | ok i =>
    show (numericCells name 1 (t.cellsAt i)).map _ = Except.map _ (List.mapM _ _)
    rw [numericCells_eq_mapM, map_mapM, map_mapM]
    simp only [map_unsignedZero_numericCell]

theorem map_unsignedZero_column (t : Table) (name : String) :
    (t.column name).map (List.map Binary64.unsignedZero) =
      (t.directColumn name).map (List.map Binary64.unsignedZero) := by
  rw [column, directColumn, map_reduceOption_view, map_reduceOption_view,
    t.map_unsignedZero_optionalColumn]

theorem map_unsignedZero_numericColumns (t : Table) :
    t.numericColumns.map (Prod.map id (List.map Binary64.unsignedZero)) =
      t.directNumericColumns.map (Prod.map id (List.map Binary64.unsignedZero)) := by
  rw [numericColumns_eq, directNumericColumns, List.map_filterMap, List.map_filterMap]
  refine List.filterMap_congr fun name _ => ?_
  have alike := congrArg shownValues? (t.map_unsignedZero_optionalColumn name)
  rw [← map_shownValues?, ← map_shownValues?] at alike
  have named := congrArg (Option.map (name, ·)) alike
  rw [Option.map_map, Option.map_map] at named ⊢
  exact named

/-- A token is read as an integer exactly if it is the literal of an integer of 64 bits.  It then
gives the floating-point number that it denotes, except that a zero loses its minus sign.  So the
views of columns are those that reading all cells as floating-point numbers gives, but for the sign
of zero. -/
theorem integers_read_as_floats :
    (∀ (text : String) (value : Int64),
      (Number.read? text = some (.int value) ↔
        Number.IsIntegerLiteral (Text.trim text.toList) value.toInt) ∧
      (Number.IsIntegerLiteral (Text.trim text.toList) value.toInt →
        ∃ direct, Binary64.read? (Text.trim text.toList) = some direct ∧
          if (Text.trim text.toList).head? = some '-' ∧ value.toInt = 0 then
            direct = .negativeZero ∧ (Number.int value).toBinary64 = .zero
          else (Number.int value).toBinary64 = direct)) ∧
    ∀ t : Table,
      (∀ name, (t.optionalColumn name).map (List.map (Option.map Binary64.unsignedZero)) =
        (t.directOptionalColumn name).map (List.map (Option.map Binary64.unsignedZero))) ∧
      (∀ name, (t.column name).map (List.map Binary64.unsignedZero) =
        (t.directColumn name).map (List.map Binary64.unsignedZero)) ∧
      t.numericColumns.map (Prod.map id (List.map Binary64.unsignedZero)) =
        t.directNumericColumns.map (Prod.map id (List.map Binary64.unsignedZero)) := by
  refine ⟨fun text value => ⟨Number.ofToken?_eq_int_iff, fun literal => ?_⟩, fun t =>
    ⟨t.map_unsignedZero_optionalColumn, t.map_unsignedZero_column,
      t.map_unsignedZero_numericColumns⟩⟩
  obtain ⟨direct, read, same, negated⟩ := Number.toBinary64_of_isIntegerLiteral literal
  refine ⟨direct, read, ?_⟩
  rw [same]
  split
  next minusZero =>
    rw [negated.2 minusZero]
    exact ⟨rfl, rfl⟩
  next other => exact if_neg fun zero => other (negated.1 zero)

/-- The least natural number that is no floating-point number, with a sign and zeros in front, a
zero with a minus sign, and both in a column. -/
theorem integers_read_as_floats_rounded :
    Number.read? " +0009007199254740993" = some (.int 9007199254740993) ∧
    (∃ direct, Binary64.read? "+0009007199254740993".toList = some direct ∧
      (Number.int 9007199254740993).toBinary64 = direct) ∧
    (∃ direct, Binary64.read? "-00".toList = some direct ∧
      direct = .negativeZero ∧ (Number.int 0).toBinary64 = .zero) ∧
    ((⟨["x"], [["-00"], ["9007199254740993"], ["-0.0"], ["nan"]]⟩ : Table).column "x").map
        (List.map Binary64.unsignedZero) =
      .ok [.zero, .ofRat false 9007199254740992, .zero] := by
  have large : Number.read? " +0009007199254740993" = some (.int 9007199254740993) := by
    decide +kernel
  have zero : Number.read? "-00" = some (.int 0) := by decide +kernel
  refine ⟨large, ?_, ?_, ?_⟩
  · obtain ⟨direct, read, same⟩ :=
      (integers_read_as_floats.1 _ _).2 ((integers_read_as_floats.1 _ _).1.1 large)
    rw [if_neg (by decide)] at same
    exact ⟨direct, read, same⟩
  · obtain ⟨direct, read, signs⟩ :=
      (integers_read_as_floats.1 _ _).2 ((integers_read_as_floats.1 _ _).1.1 zero)
    rw [if_pos (by decide)] at signs
    exact ⟨direct, read, signs⟩
  · refine ((integers_read_as_floats.2 _).2.1 "x").trans ?_
    decide +kernel

end Table

end BenchStats
