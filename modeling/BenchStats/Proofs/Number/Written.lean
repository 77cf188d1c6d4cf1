import BenchStats.Proofs.Binary64.Arithmetic
import BenchStats.Proofs.Decimal.Whole
import BenchStats.Proofs.Number.Cells
import Mathlib.Data.List.ReduceOption

/-!
# Written numbers in a column

Whole numbers below `2 ^ 63` are written as integer literals, though often not of the same integer:
the digits behind the shortest ones are zeros.  Reading such a literal and rounding it is reading
it as a floating-point number at once, so the number comes back on either way, and only the sign of
zero is lost.
-/

namespace BenchStats

theorem Binary64.ofRat_intCast_eq_negativeZero_iff {negative : Bool} {i : Int} :
    ofRat negative i = .negativeZero ↔ negative = true ∧ i = 0 := by
  by_cases zero : i = 0
  · rw [zero, Int.cast_zero]
    cases negative <;> decide
  · refine iff_of_false (fun vanished => ?_) fun both => zero both.2
    have far : (2 : Rat) ^ 0 ≤ |(i : Rat)| := by
      have least : (1 : Int) ≤ |i| := Int.one_le_abs zero
      rw [pow_zero]
      exact_mod_cast least
    have zeroValue : negativeZero.value? = some (-0) := value?_neg value?_zero
    rw [← vanished] at zeroValue
    have farRounded := le_abs_of_value?_ofRat (by decide) far zeroValue
    norm_num at farRounded

namespace Number

theorem read?_of_digits {token digits : List Char} {negative : Bool}
    (signed : Decimal.takeSign token = (negative, digits)) (nonempty : digits ≠ [])
    (isDigit : ∀ c ∈ digits, c.isDigit = true) :
    Binary64.read? token = some (.ofRat negative (if negative
      then -(Nat.ofDigitChars 10 digits 0 : Rat) else Nat.ofDigitChars 10 digits 0)) := by
  have literal : Decimal.literal? digits = some ⟨Nat.ofDigitChars 10 digits 0, 0⟩ := by
    have noExponent : Decimal.exponent? [] = some 0 := rfl
    have whole := Decimal.literal?_of_whole nonempty isDigit noExponent
    rwa [List.append_nil] at whole
  rw [Binary64.read?, signed]
  simp only [Decimal.ofName?_of_literal? negative literal, literal, Option.map_some,
    Binary64.ofDecimal, Decimal.value, zpow_zero, mul_one]

theorem read?_of_isIntegerLiteral {token : List Char} {i : Int}
    (literal : IsIntegerLiteral token i) :
    Binary64.read? token = some (.ofRat (decide (token.head? = some '-')) i) := by
  cases literal with
  | @unsigned digits nonempty isDigit =>
    have noSign : token.head? ≠ some '-' := fun minus =>
      absurd (isDigit '-' (List.mem_of_head? minus)) (by decide)
    rw [read?_of_digits (takeSign_of_digits isDigit) nonempty isDigit, decide_eq_false noSign]
    simp
  | @plus digits nonempty isDigit =>
    have signed : Decimal.takeSign ('+' :: digits) = (false, digits) := rfl
    rw [read?_of_digits signed nonempty isDigit]
    simp
  | @minus digits nonempty isDigit =>
    have signed : Decimal.takeSign ('-' :: digits) = (true, digits) := rfl
    rw [read?_of_digits signed nonempty isDigit]
    simp

theorem read?_of_readInt? {token : List Char} {value : Int64} (read : readInt? token = some value) :
    ∃ negative, Binary64.read? token = some (.ofRat negative value.toInt) :=
  ⟨_, read?_of_isIntegerLiteral (readInt?_eq_some_iff.1 read)⟩

/-- What a number is once it was written and read: not-a-number is missing, and zero has no sign. -/
def reread? (x : Binary64) : Option Binary64 :=
  if x.isNaN then none else some (if x = .negativeZero then .zero else x)

@[simp] theorem isNaN_unsigned (x : Binary64) :
    (if x = .negativeZero then .zero else x : Binary64).isNaN = x.isNaN := by
  split
  next zero =>
    rw [zero]
    rfl
  next => rfl

@[simp] theorem reduceOption_map_reread? (xs : List Binary64) :
    (xs.map reread?).reduceOption =
      (xs.filter (!·.isNaN)).map fun x => if x = .negativeZero then .zero else x := by
  induction xs with
  | nil => rfl
  | cons x rest inductionHypothesis =>
    rw [List.map_cons]
    cases number : x.isNaN with
    | true =>
      have missing : reread? x = none := by rw [reread?, if_pos number]
      rw [missing, List.reduceOption_cons_of_none, inductionHypothesis,
        List.filter_cons_of_neg (by simp [number])]
    | false =>
      have kept : reread? x = some (if x = .negativeZero then .zero else x) := by
        rw [reread?, number, if_neg Bool.false_ne_true]
      rw [kept, List.reduceOption_cons_of_some, inductionHypothesis,
        List.filter_cons_of_pos (by simp [number]), List.map_cons]

theorem toBinary64_int_of_ofRat {x : Binary64} {value : Int64} {negative : Bool}
    (rounded : x = .ofRat negative value.toInt) :
    (Number.int value).toBinary64 = if x = .negativeZero then .zero else x := by
  rw [toBinary64, Binary64.ofInt, rounded]
  by_cases zero : value.toInt = 0
  · rw [zero, Int.cast_zero]
    cases negative <;> decide
  · have nonzero : ((value.toInt : Int) : Rat) ≠ 0 := Int.cast_ne_zero.2 zero
    have signless : Binary64.ofRat negative value.toInt = .ofRat false value.toInt := by
      rw [Binary64.ofRat, Binary64.ofRat, if_neg nonzero, if_neg nonzero]
    rw [signless, if_neg]
    exact fun vanished => zero (Binary64.ofRat_intCast_eq_negativeZero_iff.1 vanished).2

theorem abs_toInt_le (value : Int64) : |(value.toInt : Rat)| ≤ 2 ^ 63 := by
  have least : (-2 ^ 63 : Int) ≤ value.toInt := value.minValue_le_toInt
  have greatest : value.toInt ≤ (2 ^ 63 : Int) := value.toInt_le.trans (by decide)
  exact_mod_cast abs_le.2 ⟨least, greatest⟩

@[simp] theorem isFinite_of_isInt {number : Number} (isInt : number.isInt = true) :
    number.toBinary64.isFinite = true := by
  cases number with
  | int value =>
    obtain ⟨q, exact, -⟩ := Binary64.exists_value?_of_abs_le false (by decide) (abs_toInt_le value)
    obtain ⟨negative, magnitude, same, -⟩ := Binary64.eq_finite_of_value? exact
    rw [toBinary64, Binary64.ofInt, same]
    rfl
  | float value => exact absurd isInt Bool.false_ne_true

theorem readInt?_floatText_ends (negative : Bool) :
    readInt? (floatText (.ofRat negative (2 ^ 63))).toList = none ∧
      readInt? (floatText (.ofRat negative (-2 ^ 63))).toList = none := by
  cases negative <;> decide +kernel

/-- A number that is written as an integer literal is whole and lies within the integers. -/
theorem whole_of_readInt?_floatText {x : Binary64} {value : Int64} (number : x.isNaN = false)
    (read : readInt? (floatText x).toList = some value) :
    ∃ i : Int, x.value? = some (i : Rat) ∧ i.natAbs < 2 ^ 63 := by
  obtain ⟨negative, rounded⟩ := read?_of_readInt? read
  rw [floatText, Decimal.read?_cellText _ number, Option.some.injEq] at rounded
  obtain ⟨q, exact, inside⟩ :=
    Binary64.exists_value?_of_abs_le negative (by decide) (abs_toInt_le value)
  rw [← rounded] at exact
  obtain ⟨i, rfl⟩ := Binary64.exists_int_of_ofRat (rounded ▸ exact)
  refine ⟨i, exact, ?_⟩
  -- Rounding may have reached an end of the range, but the texts of the ends are no integers.
  by_contra large
  have ends : (i : Rat) = 2 ^ 63 ∨ (i : Rat) = -2 ^ 63 := by
    have inside : |i| ≤ 2 ^ 63 := by exact_mod_cast inside
    rw [Int.abs_eq_natAbs] at inside
    have ends : i = 2 ^ 63 ∨ i = -2 ^ 63 := by omega
    exact_mod_cast ends
  obtain ⟨s, m, rfl, same⟩ := Binary64.eq_finite_of_value? exact
  rw [← Binary64.ofRat_signedValue s m, same] at read
  obtain ⟨top, bottom⟩ := readInt?_floatText_ends s
  rcases ends with above | below
  · rw [above, top] at read
    exact absurd read (by simp)
  · rw [below, bottom] at read
    exact absurd read (by simp)

theorem nearest?_digits_of_whole {x : Magnitude} {n : Nat} (whole : x.value = n) :
    let digits := Decimal.cellLayout.text (Decimal.shortest Decimal.cellLayout.tie x)
    digits ≠ [] ∧ (∀ c ∈ digits, c.isDigit = true) ∧
      Magnitude.nearest? (Nat.ofDigitChars 10 digits 0) = some x := by
  intro digits
  obtain ⟨d, read, value⟩ := Decimal.literal?_text Decimal.cellLayout
    (Decimal.natAbs_leadingExponent_shortest_lt Decimal.cellLayout.tie x)
  have isDigit : ∀ c ∈ digits, c.isDigit = true :=
    Decimal.isDigit_of_mem_cellText (Decimal.exponent_shortest_nonneg _ whole)
  have nonempty : digits ≠ [] := by
    obtain ⟨c, rest, text, -⟩ := Decimal.head_of_literal? read
    have written : digits = c :: rest := text
    exact written ▸ List.cons_ne_nil c rest
  refine ⟨nonempty, isDigit, ?_⟩
  have noExponent : Decimal.exponent? [] = some 0 := rfl
  have literal := Decimal.literal?_of_whole nonempty isDigit noExponent
  rw [List.append_nil, read, Option.some.injEq] at literal
  rw [← Decimal.nearest?_shortest Decimal.cellLayout.tie x, ← value, literal, Decimal.value,
    zpow_zero, mul_one]

theorem readInt?_of_digits (negative : Bool) {digits : List Char} (nonempty : digits ≠ [])
    (isDigit : ∀ c ∈ digits, c.isDigit = true) (fits : Nat.ofDigitChars 10 digits 0 < 2 ^ 63) :
    ∃ value, readInt? ((if negative then ['-'] else []) ++ digits) = some value := by
  have signed : Decimal.takeSign ((if negative then ['-'] else []) ++ digits) =
      (negative, digits) := by
    cases negative with
    | true => rfl
    | false => exact takeSign_of_digits isDigit
  rw [readInt?_of_takeSign signed nonempty isDigit]
  refine ⟨_, if_pos ?_⟩
  have least : Int64.minValue.toInt = -2 ^ 63 := rfl
  have greatest : Int64.maxValue.toInt = 2 ^ 63 - 1 := rfl
  rw [least, greatest]
  cases negative with
  | true =>
    rw [if_pos rfl]
    omega
  | false =>
    rw [if_neg Bool.false_ne_true]
    omega

theorem readInt?_floatText_of_whole {x : Binary64} {i : Int} (whole : x.value? = some (i : Rat))
    (small : i.natAbs < 2 ^ 63) : ∃ value, readInt? (floatText x).toList = some value := by
  obtain ⟨negative, m, rfl, same⟩ := Binary64.eq_finite_of_value? whole
  have magnitude : m.value = (i.natAbs : Nat) := by
    rw [← Binary64.abs_signedValue negative m, same, Nat.cast_natAbs, Int.cast_abs]
  obtain ⟨nonempty, isDigit, nearest⟩ := nearest?_digits_of_whole magnitude
  have less : m.value < 2 ^ 63 := by
    rw [magnitude]
    exact_mod_cast small
  have fits := Magnitude.lt_two_pow_of_nearest? (by decide) nearest less
  rw [floatText, Decimal.Layout.cellText, String.toList_ofList, Decimal.Layout.finiteText]
  exact readInt?_of_digits negative nonempty isDigit fits

/-- A number is read from the text it was written as: by way of an integer where it is whole and
less than `2 ^ 63`, and as a floating-point number otherwise. -/
theorem read?_floatText {x : Binary64} (number : x.isNaN = false) :
    ∃ read, read? (floatText x) = some read ∧
      (read.isInt = true ↔ ∃ i : Int, x.value? = some (i : Rat) ∧ i.natAbs < 2 ^ 63) ∧
      read.toBinary64 = if x = .negativeZero then .zero else x := by
  have direct : Binary64.read? (floatText x).toList = some x := Decimal.read?_cellText _ number
  have solid : ∀ c ∈ (floatText x).toList, Text.isBlank c = false :=
    solid_cellText Decimal.cellLayout x
  rw [read?_of_solid solid, ofToken?]
  cases literal : readInt? (floatText x).toList with
  | some value =>
    obtain ⟨negative, rounded⟩ := read?_of_readInt? literal
    rw [direct, Option.some.injEq] at rounded
    have whole := whole_of_readInt?_floatText number literal
    exact ⟨.int value, rfl, ⟨fun _ => whole, fun _ => rfl⟩, toBinary64_int_of_ofRat rounded⟩
  | none =>
    have notWhole : ¬ ∃ i : Int, x.value? = some (i : Rat) ∧ i.natAbs < 2 ^ 63 := by
      rintro ⟨i, whole, small⟩
      obtain ⟨value, written⟩ := readInt?_floatText_of_whole whole small
      rw [literal] at written
      exact absurd written (by simp)
    have nonzero : x ≠ .negativeZero := by
      rintro rfl
      exact notWhole ⟨0, Binary64.value?_neg Binary64.value?_zero, by decide⟩
    refine ⟨.float x, by simp [direct], ⟨fun isInt => absurd isInt Bool.false_ne_true, ?_⟩, ?_⟩
    · exact fun whole => absurd whole notWhole
    · rw [if_neg nonzero, toBinary64]

@[simp] theorem isMissing_floatText (x : Binary64) : isMissing (floatText x) = x.isNaN := by
  cases number : x.isNaN with
  | true =>
    rw [Binary64.eq_nan_of_isNaN number]
    decide
  | false =>
    obtain ⟨read, written, -, value⟩ := read?_floatText number
    apply isMissing_of_read? written
    simp [value, number]

end Number

namespace Table

@[simp] theorem numericCell_floatText (column : String) (row : Nat) (x : Binary64) :
    numericCell column row (Number.floatText x) = .ok (Number.reread? x) := by
  rw [numericCell, Number.isMissing_floatText, Number.reread?]
  cases number : x.isNaN with
  | true => rfl
  | false =>
    obtain ⟨read, written, -, value⟩ := Number.read?_floatText number
    simp only [written, value, Number.isNaN_unsigned, number, Bool.false_eq_true, if_false]

section Columns

variable {t : Table} {name : String} {place : Nat} (found : t.position name = .ok place)

include found

theorem optionalColumn_eq : t.optionalColumn name = numericCells name 1 (t.cellsAt place) := by
  rw [optionalColumn, found]
  rfl

/-- A written number stands in the view of its column, and it is never the reason that there is
no view. -/
theorem optionalColumn_at_floatText {row : Nat} {x : Binary64}
    (written : (t.cellsAt place)[row]? = some (Number.floatText x)) :
    (∃ values, t.optionalColumn name = .ok values ∧ values[row]? = some (Number.reread? x)) ∨
      ∃ other cell, other ≠ row ∧ (t.cellsAt place)[other]? = some cell ∧
        t.optionalColumn name = .error (.nonNumeric name (1 + other) cell) := by
  rw [optionalColumn_eq found]
  cases read : numericCells name 1 (t.cellsAt place) with
  | ok values =>
    obtain ⟨value, cellRead, entry⟩ := getElem?_of_numericCells read written
    rw [numericCell_floatText] at cellRead
    cases cellRead
    exact Or.inl ⟨values, rfl, entry⟩
  | error e =>
    obtain ⟨other, cell, member, failed⟩ := exists_error_of_numericCells read
    refine Or.inr ⟨other, cell, ?_, member, by rw [error_of_numericCell failed]⟩
    rintro rfl
    rw [written, Option.some.injEq] at member
    rw [← member, numericCell_floatText] at failed
    cases failed

theorem optionalColumn_of_floatTexts {xs : List Binary64}
    (written : t.cellsAt place = xs.map Number.floatText) :
    t.optionalColumn name = .ok (xs.map Number.reread?) := by
  rw [optionalColumn_eq found, written]
  apply numericCells_eq_ok
  rw [List.forall₂_map_left_iff, List.forall₂_map_right_iff, List.forall₂_same]
  exact fun x _ row => numericCell_floatText name row x

end Columns

/-- Every number comes back from the text it was written as: not-a-number as a missing value, which
the numeric view of a column drops, and any other number as itself, but for the sign of zero.  It
takes the way of the integers exactly if it is whole and less than `2 ^ 63`. -/
theorem written_numbers_read_back :
    (∀ x : Binary64,
      (x.isNaN = true → Number.isMissing (Number.floatText x) = true) ∧
      (x.isNaN = false → Number.isMissing (Number.floatText x) = false ∧
        ∃ number, Number.read? (Number.floatText x) = some number ∧
          (number.isInt = true ↔ ∃ i : Int, x.value? = some (i : Rat) ∧ i.natAbs < 2 ^ 63) ∧
          number.toBinary64 = if x = .negativeZero then .zero else x)) ∧
    (∀ (t : Table) (name : String) (place row : Nat) (x : Binary64),
      t.position name = .ok place → (t.cellsAt place)[row]? = some (Number.floatText x) →
      (∃ values, t.optionalColumn name = .ok values ∧
        t.column name = .ok values.reduceOption ∧
        values[row]? = some (if x.isNaN then none
          else some (if x = .negativeZero then .zero else x))) ∨
      ∃ other cell, other ≠ row ∧ (t.cellsAt place)[other]? = some cell ∧
        t.optionalColumn name = .error (.nonNumeric name (1 + other) cell)) ∧
    ∀ (t : Table) (name : String) (place : Nat) (xs : List Binary64),
      t.position name = .ok place → t.cellsAt place = xs.map Number.floatText →
      t.column name = .ok ((xs.filter (!·.isNaN)).map fun x =>
        if x = .negativeZero then .zero else x) := by
  refine ⟨?_, ?_, ?_⟩
  · intro x
    refine ⟨fun isNaN => (Number.isMissing_floatText x).trans isNaN, fun number => ?_⟩
    exact ⟨(Number.isMissing_floatText x).trans number, Number.read?_floatText number⟩
  · intro t name place row x found written
    rcases optionalColumn_at_floatText found written with ⟨values, read, entry⟩ | blamed
    · exact Or.inl ⟨values, read, by rw [column, read]; rfl, entry⟩
    · exact Or.inr blamed
  · intro t name place xs found written
    rw [column, optionalColumn_of_floatTexts found written]
    show Except.ok (xs.map Number.reread?).reduceOption = _
    simp

/-- The shortest digits of `2 ^ 60` are those of another integer, which is rounded back to it, and
a column may hold them beside a missing value and a negative zero. -/
theorem written_numbers_read_back_power :
    Number.isMissing (Number.floatText .nan) = true ∧
    (∃ number, Number.read? (Number.floatText (.ofRat false (2 ^ 60))) = some number ∧
      number.isInt = true ∧ number.toBinary64 = .ofRat false (2 ^ 60)) ∧
    (∃ values, (⟨["x"], [["-0"]]⟩ : Table).optionalColumn "x" = .ok values ∧
      values[0]? = some (some .zero)) ∧
    (⟨["x"], [["1152921504606847000"], [""], ["-0"]]⟩ : Table).column "x" =
      .ok [.ofRat false (2 ^ 60), .zero] := by
  refine ⟨(written_numbers_read_back.1 .nan).1 rfl, ?_, ?_, ?_⟩
  · have value : (Binary64.ofRat false (2 ^ 60)).value? = some ((2 ^ 60 : Int) : Rat) := by
      decide +kernel
    obtain ⟨-, number, read, path, exact⟩ :=
      (written_numbers_read_back.1 (.ofRat false (2 ^ 60))).2 (by decide +kernel)
    refine ⟨number, read, path.2 ⟨2 ^ 60, value, by decide⟩, exact.trans (if_neg ?_)⟩
    decide +kernel
  · rcases written_numbers_read_back.2.1 ⟨["x"], [["-0"]]⟩ "x" 0 0 .negativeZero
      rfl (by decide +kernel) with ⟨values, read, -, entry⟩ | ⟨other, cell, elsewhere, member, -⟩
    · exact ⟨values, read, entry.trans (by decide)⟩
    · obtain ⟨inside, -⟩ := List.getElem?_eq_some_iff.1 member
      exact absurd (Nat.lt_one_iff.1 inside) elsewhere
  · refine (written_numbers_read_back.2.2 _ "x" 0 [.ofRat false (2 ^ 60), .nan, .negativeZero]
      rfl (by decide +kernel)).trans ?_
    decide +kernel

end Table

end BenchStats
