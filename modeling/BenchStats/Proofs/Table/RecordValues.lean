import BenchStats.Proofs.Number.Written
import BenchStats.Proofs.Table.NumericColumns
import BenchStats.Proofs.Table.Records

/-!
# Records beside numeric views

A record has a number wherever the numeric view of the column has a finite one, and it is the same
number.  Where the view has nothing the record has `null`, unless the cell spells not-a-number in a
way that is not among the missing values: such a spelling stays a text, as an infinity does.
-/

namespace BenchStats

namespace Number

/-- A spelling of not-a-number: its three letters in any case, with or without a sign. -/
def SpellsNaN (cell : String) : Prop :=
  ∃ sign ∈ [[], ['+'], ['-']], ∃ name : List Char,
    name.map Char.toLower = "nan".toList ∧ Text.trim cell.toList = sign ++ name

theorem takeSign_of_name {name : List Char} (spelled : name.map Char.toLower = "nan".toList)
    {sign : List Char} (member : sign ∈ [[], ['+'], ['-']]) :
    ∃ negative, Decimal.takeSign (sign ++ name) = (negative, name) := by
  simp only [List.mem_cons, List.not_mem_nil, or_false] at member
  rcases member with rfl | rfl | rfl
  · refine ⟨false, ?_⟩
    rw [List.nil_append, Decimal.takeSign]
    · rintro rest rfl
      exact absurd (List.cons.inj spelled).1 (by decide)
    · rintro rest rfl
      exact absurd (List.cons.inj spelled).1 (by decide)
  · exact ⟨false, rfl⟩
  · exact ⟨true, rfl⟩

theorem append_of_takeSign (token : List Char) :
    ∃ sign ∈ [[], ['+'], ['-']], token = sign ++ (Decimal.takeSign token).2 := by
  unfold Decimal.takeSign
  split
  next rest => exact ⟨['-'], by simp, rfl⟩
  next rest => exact ⟨['+'], by simp, rfl⟩
  next => exact ⟨[], by simp, rfl⟩

@[simp] theorem ofName?_eq_nan_iff (negative : Bool) {name : List Char} :
    Binary64.ofName? negative name = some .nan ↔ name.map Char.toLower = "nan".toList := by
  unfold Binary64.ofName?
  dsimp only
  split
  next spelled => exact ⟨fun _ => spelled, fun _ => rfl⟩
  next other =>
    refine iff_of_false (fun named => ?_) other
    split at named <;> cases named

@[simp] theorem read?_token_eq_nan_iff {token : List Char} :
    Binary64.read? token = some .nan ↔
      (Decimal.takeSign token).2.map Char.toLower = "nan".toList := by
  unfold Binary64.read?
  rw [← ofName?_eq_nan_iff (Decimal.takeSign token).1]
  rcases Decimal.takeSign token with ⟨negative, body⟩
  dsimp only
  split
  next x named => rw [named]
  next unnamed =>
    rw [unnamed]
    refine iff_of_false (fun read => ?_) (by simp)
    obtain ⟨d, -, nan⟩ := Option.map_eq_some_iff.1 read
    have number := Binary64.isNaN_ofRat negative (if negative then -d.value else d.value)
    rw [Binary64.ofDecimal] at nan
    rw [nan] at number
    cases number

@[simp]
theorem read?_eq_nan_iff {cell : String} : read? cell = some (.float .nan) ↔ SpellsNaN cell := by
  have direct : read? cell = some (.float .nan) ↔
      Binary64.read? (Text.trim cell.toList) = some .nan := by
    rw [read?, ofToken?]
    cases literal : readInt? (Text.trim cell.toList) with
    | none => simp
    | some value =>
      -- An integer literal is read as a floating-point number too, and never as this one.
      obtain ⟨negative, rounded⟩ := read?_of_readInt? literal
      refine iff_of_false (by simp) fun nan => ?_
      have number := Binary64.isNaN_ofRat negative value.toInt
      rw [Option.some.inj (rounded.symm.trans nan)] at number
      cases number
  rw [direct, read?_token_eq_nan_iff]
  constructor
  · intro spelled
    obtain ⟨sign, member, token⟩ := append_of_takeSign (Text.trim cell.toList)
    exact ⟨sign, member, _, spelled, token⟩
  · rintro ⟨sign, member, name, spelled, token⟩
    obtain ⟨negative, signed⟩ := takeSign_of_name spelled member
    rw [token, signed]
    exact spelled

end Number

namespace Members

variable {α : Type}

theorem lookup_zip {keys : List String} {key : String} (member : key ∈ keys) (values : List α) :
    (keys.zip values).lookup key = values[keys.idxOf key]? := by
  induction keys generalizing values with
  | nil => cases member
  | cons first rest inductionHypothesis =>
    cases values with
    | nil => simp
    | cons value others =>
      rw [List.zip_cons_cons]
      by_cases same : key = first
      · simp [same]
      · have inRest := (List.mem_cons.1 member).resolve_left same
        rw [List.lookup_cons, beq_eq_false_iff_ne.2 same, inductionHypothesis inRest,
          List.idxOf_cons_ne _ (Ne.symm same), List.getElem?_cons_succ]

end Members

namespace Table

open Number

/-- What a cell of a numeric column is in the numeric view and in the record of its row. -/
inductive Shown (cell : String) : Option Binary64 → Json → Prop where
  | missing : isMissing cell = true → Shown cell none .null
  | spelled : isMissing cell = false → SpellsNaN cell → Shown cell none (.string cell)
  | number (number : Number) : isMissing cell = false → ¬ SpellsNaN cell →
      number.toBinary64.isFinite = true → Shown cell (some number.toBinary64) (.number number)
  | infinite (negative : Bool) : isMissing cell = false → ¬ SpellsNaN cell →
      Shown cell (some (.infinite negative)) (.string cell)

theorem shown_jsonCell {cell : String}
    (fits : isVoid cell = false → (Number.read? cell).isSome = true) :
    Shown cell (cellNumber? cell) (jsonCell cell) := by
  unfold cellNumber? isVoid jsonCell at *
  cases missing : isMissing cell with
  | true => exact .missing missing
  | false =>
    simp only [missing, Bool.false_or, Bool.false_eq_true, if_false] at fits ⊢
    cases read : Number.read? cell with
    | none => simp [read] at fits
    | some number =>
      have spells : SpellsNaN cell ↔ number = .float .nan := by
        rw [← read?_eq_nan_iff, read, Option.some.injEq]
      cases number with
      | int value =>
        have isNaN : (Number.int value).toBinary64.isNaN = false := isNaN_of_isInt rfl
        rw [Option.any_some, isNaN]
        exact .number (.int value) missing (by simp [spells]) (isFinite_of_isInt rfl)
      | float value =>
        cases value with
        | nan => exact .spelled missing (spells.2 rfl)
        | infinite negative => exact .infinite negative missing (by simp [spells])
        | finite negative magnitude =>
          exact .number (.float (.finite negative magnitude)) missing (by simp [spells]) rfl

/-- What the record of a row has for a cell, beside the value of the cell in the numeric view. -/
structure Agrees (cell : String) (value : Option Binary64) (member : Json) : Prop where
  null_iff : member = .null ↔ value = none ∧ ¬ (SpellsNaN cell ∧ isMissing cell = false)
  number : ∀ v, value = some v → v.isFinite = true →
    ∃ number, member = .number number ∧ number.toBinary64 = v
  text : SpellsNaN cell ∧ isMissing cell = false ∨ (∃ negative, value = some (.infinite negative)) →
    member = .string cell

theorem Shown.agrees {cell : String} {value : Option Binary64} {member : Json}
    (shown : Shown cell value member) : Agrees cell value member := by
  cases shown with
  | missing missing => exact ⟨by simp [missing], by simp, by simp [missing]⟩
  | spelled present spells => exact ⟨by simp [present, spells], by simp, by simp⟩
  | number number present plain finite =>
    refine ⟨by simp, ?_, ?_⟩
    · rintro v ⟨⟩ -
      exact ⟨number, rfl, rfl⟩
    · rintro (⟨spells, -⟩ | ⟨negative, infinite⟩)
      · exact absurd spells plain
      · rw [Option.some.inj infinite] at finite
        cases finite
  | infinite negative present plain =>
    refine ⟨by simp, ?_, fun _ => rfl⟩
    rintro v ⟨⟩ finite
    cases finite

/-- In a table with distinct headers, the record of every row has a member for every column, and the
members of a column that has a numeric view agree with it: a finite number is the same in both, and
`null` stands exactly where the view has nothing, but for unlisted spellings of not-a-number. -/
theorem records_agree_with_columns (t : Table) (rectangular : t.Rectangular)
    (distinct : t.headers.Nodup) (name : String) (values : List (Option Binary64))
    (read : t.optionalColumn name = .ok values) :
    ∃ (place : Nat) (objects : List (Members Json)), t.position name = .ok place ∧
      t.toRecords = .array (objects.map .object) ∧
      objects.length = t.rows.length ∧ values.length = t.rows.length ∧
      ∀ row < t.rows.length, ∃ cell value members member,
        (t.cellsAt place)[row]? = some cell ∧ values[row]? = some value ∧
        objects[row]? = some members ∧ members.lookup name = some member ∧
        Agrees cell value member := by
  obtain ⟨place, found, cells⟩ := bind_eq_ok read
  obtain ⟨fits, rfl⟩ := numericCells_eq_ok_iff.1 cells
  have inHeader := mem_headers_of_position found
  obtain rfl : place = t.headers.idxOf name :=
    Except.ok.inj (found.symm.trans (position_eq_idxOf inHeader))
  have kept : t.KeepsCells := (keepsCells_iff rectangular).2 (Or.inr distinct)
  refine ⟨_, t.rows.map fun row => t.headers.zip (row.map jsonCell), found, ?_, ?_, ?_, ?_⟩
  · rw [KeepsCells] at kept
    rw [kept, List.map_map]
    rfl
  · rw [List.length_map]
  · rw [List.length_map, cellsAt, List.length_map]
  · intro row inside
    have wide := rectangular.position_lt found (List.getElem_mem inside)
    have there : (t.cellsAt (t.headers.idxOf name))[row]? =
        some (t.rows[row][t.headers.idxOf name]) := by
      rw [cellsAt, List.getElem?_map, List.getElem?_eq_getElem inside, Option.map_some,
        List.getD_eq_getElem?_getD, List.getElem?_eq_getElem wide, Option.getD_some]
    refine ⟨_, _, t.headers.zip (t.rows[row].map jsonCell), _, there, ?_, ?_, ?_,
      (shown_jsonCell (fits _ (List.mem_of_getElem? there))).agrees⟩
    · rw [List.getElem?_map, there, Option.map_some]
    · rw [List.getElem?_map, List.getElem?_eq_getElem inside, Option.map_some]
    · rw [Members.lookup_zip inHeader, List.getElem?_map, List.getElem?_eq_getElem wide,
        Option.map_some]

/-- A column with numbers beyond 53 bits, a missing value and an unlisted spelling, beside texts. -/
def measuredTable : Table :=
  ⟨["x", "label"], [["9007199254740993", "NAN"], ["", "null"], ["+nan", "0"], [" 0.5", "b"]]⟩

theorem records_agree_with_columns_measured :
    ∃ (objects : List (Members Json)),
      measuredTable.toRecords = .array (objects.map .object) ∧
      (∃ members member, objects[0]? = some members ∧ members.lookup "x" = some member ∧
        ∃ number, member = .number number ∧ number.toBinary64 = .ofNat (2 ^ 53)) ∧
      (∃ members, objects[1]? = some members ∧ members.lookup "x" = some .null) ∧
      ∃ members, objects[2]? = some members ∧ members.lookup "x" = some (.string "+nan") := by
  have view : measuredTable.optionalColumn "x" =
      .ok [some (.ofNat (2 ^ 53)), none, none, some (.ofRat false (1 / 2))] := by decide +kernel
  obtain ⟨place, objects, found, records, -, -, rows⟩ :=
    records_agree_with_columns measuredTable (by decide) (by decide) "x" _ view
  obtain rfl : place = 0 := Except.ok.inj (found.symm.trans (by decide +kernel))
  refine ⟨objects, records, ?_, ?_, ?_⟩
  · obtain ⟨cell, value, members, member, -, entry, object, looked, agrees⟩ := rows 0 (by decide)
    cases entry
    exact ⟨members, member, object, looked, agrees.number _ rfl (by decide +kernel)⟩
  · obtain ⟨cell, value, members, member, there, entry, object, looked, agrees⟩ :=
      rows 1 (by decide)
    cases there
    cases entry
    refine ⟨members, object, ?_⟩
    rw [looked, agrees.null_iff.2 ⟨rfl, fun spells => absurd spells.2 (by decide)⟩]
  · obtain ⟨cell, value, members, member, there, entry, object, looked, agrees⟩ :=
      rows 2 (by decide)
    cases there
    refine ⟨members, object, ?_⟩
    have spells : SpellsNaN "+nan" := read?_eq_nan_iff.1 (by decide +kernel)
    rw [looked, agrees.text (Or.inl ⟨spells, by decide⟩)]
    rfl

/-- A spelling of not-a-number in capitals is nothing in the view and a text in the record. -/
theorem not_null_of_capital_nan :
    ¬ ∀ (t : Table) (name : String) (values : List (Option Binary64)) (records : List Json),
      t.Rectangular → t.headers.Nodup → t.optionalColumn name = .ok values →
      t.toRecords = .array records → ∀ (row : Nat) (members : Members Json) (member : Json),
        records[row]? = some (.object members) → members.lookup name = some member →
        (member = .null ↔ values[row]? = some none) := by
  intro agree
  have text : jsonCell "NAN" = .string "NAN" := by
    have present : isMissing "NAN" = false := by decide
    have nan : Number.read? "NAN" = some (.float .nan) := by decide +kernel
    rw [jsonCell, present, nan]
    rfl
  have records : toRecords ⟨["x"], [["NAN"]]⟩ = .array [.object [("x", .string "NAN")]] := by
    rw [← text]
    rfl
  have null := agree ⟨["x"], [["NAN"]]⟩ "x" [none] _ (by decide) (by decide) (by decide +kernel)
    records 0 _ _ rfl rfl
  cases null.2 rfl

end Table

end BenchStats
