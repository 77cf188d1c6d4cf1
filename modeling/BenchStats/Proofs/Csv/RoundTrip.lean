import BenchStats.Table.Csv

/-!
# Written tables read again

Reading what was written gives every record back whatever its fields hold, with one exception: a
record whose text is a blank line is skipped.  This happens to the empty record and to the record
of one empty field, so a table survives unless it has no column, or one column with an empty cell.
-/

namespace BenchStats

namespace Csv

namespace Reader

/-- The reader at the start of a record. -/
def atRecord (records : List (List String)) (line : Nat) : Reader :=
  ⟨.plain, records, [], [], line, false⟩

theorem step_comma {mode : Mode} (outside : mode = .plain ∨ ∃ start, mode = .afterQuote start)
    (records : List (List String)) (fields : List String) (field : List Char) (line : Nat)
    (started : Bool) :
    step ⟨mode, records, fields, field, line, started⟩ ',' =
      ⟨.plain, records, String.ofList field.reverse :: fields, [], line, true⟩ := by
  rcases outside with rfl | ⟨start, rfl⟩ <;> simp [step, plainStep, endField]

theorem step_lineFeed {mode : Mode} (outside : mode = .plain ∨ ∃ start, mode = .afterQuote start)
    (records : List (List String)) (fields : List String) (field : List Char) (line : Nat) :
    step ⟨mode, records, fields, field, line, true⟩ '\n' =
      atRecord ((fields.reverse ++ [String.ofList field.reverse]) :: records) (line + 1) := by
  rcases outside with rfl | ⟨start, rfl⟩ <;>
    simp [step, plainStep, endRecord, endField, atRecord]

theorem foldl_step_escaped (field : List Char) (start : Nat) (records : List (List String))
    (fields : List String) (read : List Char) (line : Nat) (started : Bool) :
    ∃ line', (field.flatMap fun c => if c = '"' then ['"', '"'] else [c]).foldl step
        ⟨.quoted start, records, fields, read, line, started⟩ =
      ⟨.quoted start, records, fields, field.reverse ++ read, line', started⟩ := by
  induction field generalizing read line with
  | nil => exact ⟨line, rfl⟩
  | cons c rest inductionHypothesis =>
    by_cases quote : c = '"'
    · subst quote
      obtain ⟨line', restRead⟩ := inductionHypothesis ('"' :: read) line
      refine ⟨line', ?_⟩
      simpa [step, push] using restRead
    · obtain ⟨line', restRead⟩ :=
        inductionHypothesis (c :: read) (if c = '\n' then line + 1 else line)
      refine ⟨line', ?_⟩
      simpa [step, push, quote] using restRead

theorem foldl_step_bare {field : List Char} (bare : needsQuotes field = false)
    (records : List (List String)) (fields : List String) (read : List Char) (line : Nat)
    (started : Bool) :
    field.foldl step ⟨.plain, records, fields, read, line, started⟩ =
      ⟨.plain, records, fields, field.reverse ++ read, line, started || !field.isEmpty⟩ := by
  induction field generalizing read started with
  | nil => simp
  | cons c rest inductionHypothesis =>
    simp only [needsQuotes, List.any_cons, Bool.or_eq_false_iff, decide_eq_false_iff_not] at bare
    obtain ⟨⟨⟨⟨comma, quote⟩, lineFeed⟩, carriageReturn⟩, restBare⟩ := bare
    have stepped : step ⟨.plain, records, fields, read, line, started⟩ c =
        ⟨.plain, records, fields, c :: read, line, true⟩ := by
      simp [step, plainStep, push, comma, quote, lineFeed, carriageReturn]
    rw [List.foldl_cons, stepped, inductionHypothesis restBare]
    simp

end Reader

@[simp] theorem fieldText_eq_nil_iff {field : String} : fieldText field = [] ↔ field = "" := by
  unfold fieldText
  split
  next quoted =>
    refine ⟨fun empty => by simp at empty, ?_⟩
    rintro rfl
    simp [needsQuotes] at quoted
  next => simp

open Reader

/-- Reading the text of a field leaves the field behind, at a place where it can be ended. -/
theorem foldl_step_fieldText (field : String) (records : List (List String))
    (fields : List String) (line : Nat) (started : Bool) :
    ∃ mode line', (mode = .plain ∨ ∃ start, mode = .afterQuote start) ∧
      (fieldText field).foldl step ⟨.plain, records, fields, [], line, started⟩ =
        ⟨mode, records, fields, field.toList.reverse, line', started || field ≠ ""⟩ := by
  by_cases quoted : needsQuotes field.toList
  · have nonempty : field ≠ "" := by
      rintro rfl
      simp [needsQuotes] at quoted
    obtain ⟨line', contentRead⟩ :=
      foldl_step_escaped field.toList line records fields [] line true
    refine ⟨.afterQuote line, line', Or.inr ⟨line, rfl⟩, ?_⟩
    have opened : step ⟨.plain, records, fields, [], line, started⟩ '"' =
        ⟨.quoted line, records, fields, [], line, true⟩ := by simp [step, plainStep]
    rw [fieldText, if_pos quoted, List.foldl_cons, List.foldl_append, opened, contentRead]
    simp [step, nonempty]
  · refine ⟨.plain, line, Or.inl rfl, ?_⟩
    rw [fieldText, if_neg quoted, foldl_step_bare (by simpa using quoted)]
    cases content : field.toList <;> simp [← String.toList_eq_nil_iff, content]

@[simp] theorem recordText_singleton (field : String) :
    recordText [field] = fieldText field ++ ['\n'] := by
  simp [recordText]

@[simp] theorem recordText_cons_cons (field other : String) (rest : List String) :
    recordText (field :: other :: rest) = fieldText field ++ ',' :: recordText (other :: rest) := by
  simp [recordText, List.intercalate_cons_cons]

theorem recordText_eq_blank_iff {record : List String} :
    recordText record = ['\n'] ↔ record = [] ∨ record = [""] := by
  match record with
  | [] => simp [recordText]
  | [field] => simp
  | field :: other :: rest =>
    rw [recordText_cons_cons]
    cases fieldText field <;> simp [recordText]

theorem foldl_step_recordText_started (field : String) (rest : List String)
    (records : List (List String)) (fields : List String) (line : Nat) :
    ∃ line', (recordText (field :: rest)).foldl step ⟨.plain, records, fields, [], line, true⟩ =
      atRecord ((fields.reverse ++ field :: rest) :: records) line' := by
  induction rest generalizing field fields line with
  | nil =>
    obtain ⟨mode, line', outside, fieldRead⟩ :=
      foldl_step_fieldText field records fields line true
    refine ⟨line' + 1, ?_⟩
    rw [recordText_singleton, List.foldl_append, fieldRead, List.foldl_cons, Bool.true_or,
      step_lineFeed outside]
    simp
  | cons other rest inductionHypothesis =>
    obtain ⟨mode, line', outside, fieldRead⟩ :=
      foldl_step_fieldText field records fields line true
    obtain ⟨line'', restRead⟩ := inductionHypothesis other (field :: fields) line'
    refine ⟨line'', ?_⟩
    rw [recordText_cons_cons, List.foldl_append, fieldRead, List.foldl_cons, step_comma outside]
    simpa using restRead

/-- The text of a record adds the record, unless it is a blank line. -/
theorem foldl_step_recordText (record : List String) (records : List (List String)) (line : Nat) :
    ∃ line', (recordText record).foldl step (atRecord records line) =
      atRecord (if recordText record ≠ ['\n'] then record :: records else records) line' := by
  by_cases blank : recordText record = ['\n']
  · exact ⟨line + 1, by simp [blank, atRecord, step, plainStep, endRecord]⟩
  rw [if_pos blank]
  match record with
  | [] => exact absurd (recordText_eq_blank_iff.2 (Or.inl rfl)) blank
  | [field] =>
    have nonempty : field ≠ "" := by
      rintro rfl
      exact blank (recordText_eq_blank_iff.2 (Or.inr rfl))
    obtain ⟨mode, line', outside, fieldRead⟩ :=
      foldl_step_fieldText field records [] line false
    refine ⟨line' + 1, ?_⟩
    rw [recordText_singleton, List.foldl_append, atRecord, fieldRead, List.foldl_cons,
      Bool.false_or, decide_eq_true nonempty, step_lineFeed outside]
    simp
  | field :: other :: rest =>
    obtain ⟨mode, line', outside, fieldRead⟩ :=
      foldl_step_fieldText field records [] line false
    obtain ⟨line'', restRead⟩ :=
      foldl_step_recordText_started other rest records [field] line'
    refine ⟨line'', ?_⟩
    rw [recordText_cons_cons, List.foldl_append, atRecord, fieldRead, List.foldl_cons,
      step_comma outside]
    simpa using restRead

theorem foldl_step_recordTexts (written records : List (List String)) (line : Nat) :
    ∃ line', (written.flatMap recordText).foldl step (atRecord records line) =
      atRecord ((written.filter (recordText · ≠ ['\n'])).reverse ++ records) line' := by
  induction written generalizing records line with
  | nil => exact ⟨line, rfl⟩
  | cons record rest inductionHypothesis =>
    obtain ⟨line', recordRead⟩ := foldl_step_recordText record records line
    obtain ⟨line'', restRead⟩ := inductionHypothesis
      (if recordText record ≠ ['\n'] then record :: records else records) line'
    refine ⟨line'', ?_⟩
    rw [List.flatMap_cons, List.foldl_append, recordRead, restRead]
    by_cases blank : recordText record = ['\n'] <;> simp [blank]

/-- Written records are read back in order, all but the blank lines. -/
@[simp] theorem records_recordTexts (written : List (List String)) :
    records (written.flatMap recordText) = .ok (written.filter (recordText · ≠ ['\n'])) := by
  obtain ⟨line, read⟩ := foldl_step_recordTexts written [] 1
  have started : Reader.initial = atRecord [] 1 := rfl
  rw [records, started, read]
  simp [atRecord, finish, endRecord]

end Csv

namespace Table

theorem ofCsv?_toCsv_eq (t : Table) :
    ofCsv? t.toCsv =
      ofRecords? ((t.headers :: t.rows).filter (Csv.recordText · ≠ ['\n'])) := by
  rw [ofCsv?, toCsv, String.toList_ofList, Csv.records_recordTexts]
  rfl

theorem length_of_ofRecords? {records : List (List String)} {t : Table}
    (result : ofRecords? records = .ok t) : t.rows.length + 1 = records.length := by
  cases records with
  | nil => cases result
  | cons headers records =>
    simp only [bind, Except.bind, ofRecords?] at result
    cases fitted : Csv.fitRows headers.length 1 records with
    | error e =>
      rw [fitted] at result
      cases result
    | ok rows =>
      rw [fitted] at result
      cases result
      simpa using Csv.length_fitRows fitted

/-- A table is read back exactly if none of its records is written as a blank line. -/
theorem ofCsv?_toCsv_eq_ok_iff {t : Table} (rectangular : t.Rectangular) :
    ofCsv? t.toCsv = .ok t ↔ ∀ record ∈ t.headers :: t.rows, Csv.recordText record ≠ ['\n'] := by
  rw [ofCsv?_toCsv_eq]
  constructor
  · intro result
    have sameLength := length_of_ofRecords? result
    -- Dropping a record would leave a row less than the table has.
    have nothingDropped := List.length_filter_eq_length_iff.1 sameLength.symm
    simpa using nothingDropped
  · intro noneBlank
    rw [List.filter_eq_self.2 (by simpa using noneBlank)]
    have narrow : ∀ row ∈ t.rows, row.length ≤ t.headers.length := fun row member =>
      Nat.le_of_eq (rectangular row member)
    have unpadded : (t.rows.map fun row =>
        row ++ List.replicate (t.headers.length - row.length) "") = t.rows := by
      rw [List.map_congr_left (g := id) fun row member => by simp [rectangular row member],
        List.map_id]
    rw [ofRecords?, Csv.fitRows_of_le narrow, unpadded]
    rfl

/-- In a table of a given width, the blank lines are the empty cells of an only column. -/
theorem recordText_ne_blank_iff {t : Table} (rectangular : t.Rectangular) :
    (∀ record ∈ t.headers :: t.rows, Csv.recordText record ≠ ['\n']) ↔
      2 ≤ t.headers.length ∨
        t.headers.length = 1 ∧ "" ∉ t.headers ∧ ∀ row ∈ t.rows, "" ∉ row := by
  have widths : ∀ record ∈ t.headers :: t.rows, record.length = t.headers.length := by
    intro record member
    rcases List.mem_cons.1 member with rfl | member
    · rfl
    · exact rectangular record member
  have blankFree (record : List String) (member : record ∈ t.headers :: t.rows) :
      Csv.recordText record ≠ ['\n'] ↔
        2 ≤ t.headers.length ∨ t.headers.length = 1 ∧ "" ∉ record := by
    rw [← widths record member, Ne, Csv.recordText_eq_blank_iff]
    match record with
    | [] => simp
    | [cell] => simp [eq_comm]
    | _ :: _ :: _ => simp
  constructor
  · intro noneBlank
    rcases (blankFree _ List.mem_cons_self).1 (noneBlank _ List.mem_cons_self) with
      wide | ⟨single, header⟩
    · exact Or.inl wide
    · refine Or.inr ⟨single, header, fun row member => ?_⟩
      have inTable : row ∈ t.headers :: t.rows := List.mem_cons_of_mem _ member
      rcases (blankFree row inTable).1 (noneBlank row inTable) with wide | ⟨_, cells⟩
      · omega
      · exact cells
  · rintro (wide | ⟨single, header, cells⟩) record member
    · exact (blankFree record member).2 (Or.inl wide)
    · refine (blankFree record member).2 (Or.inr ⟨single, ?_⟩)
      rcases List.mem_cons.1 member with rfl | member
      · exact header
      · exact cells record member

/-- Writing and reading a table gives it back if and only if it has two columns, or one column
without an empty cell.  Whatever the table, its records come back unchanged and in order, but for
those that are written as a blank line. -/
theorem ofCsv?_toCsv_iff (t : Table) (rectangular : t.Rectangular) :
    (ofCsv? t.toCsv = .ok t ↔
      2 ≤ t.headers.length ∨
        t.headers.length = 1 ∧ "" ∉ t.headers ∧ ∀ row ∈ t.rows, "" ∉ row) ∧
    (ofCsv? t.toCsv = .ok t ↔
      ∀ record ∈ t.headers :: t.rows, Csv.recordText record ≠ ['\n']) ∧
    Csv.records t.toCsv.toList =
      .ok ((t.headers :: t.rows).filter (Csv.recordText · ≠ ['\n'])) := by
  refine ⟨?_, ofCsv?_toCsv_eq_ok_iff rectangular, ?_⟩
  · rw [ofCsv?_toCsv_eq_ok_iff rectangular, recordText_ne_blank_iff rectangular]
  · rw [toCsv, String.toList_ofList, Csv.records_recordTexts]

theorem ofCsv?_toCsv_single_column :
    (⟨["a,\"b\""], [["x\r\ny"], [" "]]⟩ : Table).Rectangular ∧
    ofCsv? (⟨["a,\"b\""], [["x\r\ny"], [" "]]⟩ : Table).toCsv =
      .ok ⟨["a,\"b\""], [["x\r\ny"], [" "]]⟩ := by
  have rectangular : (⟨["a,\"b\""], [["x\r\ny"], [" "]]⟩ : Table).Rectangular := by decide
  exact ⟨rectangular, (ofCsv?_toCsv_iff _ rectangular).1.2 (Or.inr (by decide))⟩

end Table

end BenchStats
