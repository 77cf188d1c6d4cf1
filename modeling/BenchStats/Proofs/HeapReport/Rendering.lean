import BenchStats.HeapReport.Basic
import BenchStats.Proofs.HeapReport.Words
import BenchStats.Proofs.Number.Numeral

/-!
# Reports written in any layout

A snapshot of integers may be written with commas between digits, with any white space between and
around its fields, and among any lines that do not look like snapshots.  Reading such a report
gives the snapshots back in order.
-/

namespace BenchStats.HeapReport

open Text Number

/-- A snapshot of six integers, whose running number is not negative. -/
structure IntegerSnapshot where
  index : Int64
  time : Int64
  totalBytes : Int64
  usefulHeapBytes : Int64
  extraHeapBytes : Int64
  stackBytes : Int64
  index_nonneg : 0 ≤ index.toInt

namespace IntegerSnapshot

def values (s : IntegerSnapshot) : List Int64 :=
  [s.index, s.time, s.totalBytes, s.usefulHeapBytes, s.extraHeapBytes, s.stackBytes]

def toSnapshot (s : IntegerSnapshot) : Snapshot :=
  ⟨.int s.index, .int s.time, .int s.totalBytes, .int s.usefulHeapBytes, .int s.extraHeapBytes,
    .int s.stackBytes⟩

end IntegerSnapshot

def IsGap (gap : List Char) : Prop := ∀ c ∈ gap, isBlank c = true ∧ c ≠ '\n'

instance (gap : List Char) : Decidable (IsGap gap) :=
  decidable_of_iff (gap.all fun c => isBlank c && decide (c ≠ '\n')) (by simp [IsGap])

/-- A field: a numeral with commas among its digits or behind them. -/
def IsField (value : Int64) (text : List Char) : Prop :=
  IsNumeral value.toInt (text.filter (· ≠ ',')) ∧ text.head? ≠ some ','

/-- Fields with white space between them and perhaps behind the last one. -/
inductive IsRow : List Int64 → List Char → Prop where
  | last {value text gap} : IsField value text → IsGap gap → IsRow [value] (text ++ gap)
  | cons {value text gap values rest} : IsField value text → IsGap gap → gap ≠ [] →
      IsRow values rest → IsRow (value :: values) (text ++ gap ++ rest)

/-- A line with the snapshots it shows: one, or none if it does not look like a snapshot. -/
inductive IsLine : List IntegerSnapshot → List Char → Prop where
  | snapshot {snapshot : IntegerSnapshot} {leading row} : IsGap leading →
      IsRow snapshot.values row → IsLine [snapshot] (leading ++ row)
  | other {line} : '\n' ∉ line → isCandidate line = false → IsLine [] line

/-- The texts of a report; only the last line may lack its end. -/
inductive Renders : List IntegerSnapshot → List Char → Prop where
  | last {shown line} : IsLine shown line → Renders shown line
  | line {shown line ending snapshots rest} : IsLine shown line →
      ending = ['\n'] ∨ ending = ['\r', '\n'] → Renders snapshots rest →
      Renders (shown ++ snapshots) (line ++ ending ++ rest)

theorem isField_of_intText {value : Int64} {text : List Char}
    (digits : text.filter (· ≠ ',') = (intText value.toInt).toList)
    (starts : text.head? ≠ some ',') : IsField value text := by
  constructor
  · rw [digits]
    exact isNumeral_intText value.toInt
  · exact starts

theorem IsGap.filter_comma {gap : List Char} (isGap : IsGap gap) :
    gap.filter (· ≠ ',') = gap := by
  rw [List.filter_eq_self]
  intro c member
  have blank := (isGap c member).1
  simp only [ne_eq, decide_not, Bool.not_eq_true', decide_eq_false_iff_not]
  rintro rfl
  revert blank
  decide

theorem IsRow.runs {values : List Int64} {row : List Char} (isRow : IsRow values row) :
    List.Forall₂ (fun value text => IsNumeral value.toInt text) values
      (runs (row.filter (· ≠ ','))) := by
  induction isRow with
  | last field isGap =>
    have blanks := fun c member => (isGap c member).1
    rw [List.filter_append, isGap.filter_comma, runs_append_blanks blanks,
      runs_of_solid field.1.ne_nil field.1.solid]
    exact .cons field.1 .nil
  | cons field isGap apart _ inductionHypothesis =>
    have blanks := fun c member => (isGap c member).1
    rw [List.filter_append, List.filter_append, isGap.filter_comma,
      runs_word_gap field.1.ne_nil field.1.solid apart blanks]
    exact .cons field.1 inductionHypothesis

theorem IsField.head {value : Int64} {text : List Char} (field : IsField value text) :
    ∃ c rest, text = c :: rest ∧ c ∈ text.filter (· ≠ ',') := by
  obtain ⟨numeral, head⟩ := field
  cases text with
  | nil => exact absurd rfl numeral.ne_nil
  | cons c rest => exact ⟨c, rest, rfl, by simpa using head⟩

theorem IsField.lineFeed_not_mem {value : Int64} {text : List Char} (field : IsField value text) :
    '\n' ∉ text := by
  intro member
  have kept : '\n' ∈ text.filter (· ≠ ',') := List.mem_filter.2 ⟨member, by decide⟩
  rcases field.1.mem kept with sign | digit
  · exact absurd sign (by decide)
  · exact absurd digit (by decide)

theorem IsGap.lineFeed_not_mem {gap : List Char} (isGap : IsGap gap) : '\n' ∉ gap :=
  fun member => (isGap _ member).2 rfl

theorem IsRow.lineFeed_not_mem {values : List Int64} {row : List Char} (isRow : IsRow values row) :
    '\n' ∉ row := by
  induction isRow with
  | last field isGap => simp [field.lineFeed_not_mem, isGap.lineFeed_not_mem]
  | cons field isGap _ _ inductionHypothesis =>
    simp [field.lineFeed_not_mem, isGap.lineFeed_not_mem, inductionHypothesis]

theorem IsRow.starts {value : Int64} {values : List Int64} {row : List Char}
    (isRow : IsRow (value :: values) row) :
    ∃ text rest, IsField value text ∧ row = text ++ rest := by
  cases isRow with
  | last field => exact ⟨_, _, field, rfl⟩
  | cons field => exact ⟨_, _, field, List.append_assoc _ _ _⟩

theorem IsRow.isCandidate {value : Int64} {values : List Int64} {row leading : List Char}
    (isRow : IsRow (value :: values) row) (nonneg : 0 ≤ value.toInt) (isGap : IsGap leading) :
    isCandidate (leading ++ row) = true := by
  obtain ⟨text, rest, field, rfl⟩ := isRow.starts
  obtain ⟨c, others, rfl, kept⟩ := field.head
  obtain ⟨digits, -, isDigit, -, text_eq⟩ := field.1
  rw [if_neg (by omega), List.nil_append] at text_eq
  have digit : c.isDigit = true := isDigit c (text_eq ▸ kept)
  have blanks : ∀ d ∈ leading, isBlank d = true := fun d member => (isGap d member).1
  rw [HeapReport.isCandidate, List.dropWhile_append_of_pos blanks, List.cons_append,
    List.dropWhile_cons_of_neg (by simp [isBlank_of_isDigit digit])]
  exact isDecimalDigit_of_isDigit digit

theorem IsLine.lineFeed_not_mem {shown : List IntegerSnapshot} {line : List Char}
    (isLine : IsLine shown line) : '\n' ∉ line := by
  cases isLine with
  | snapshot isGap isRow => simp [isGap.lineFeed_not_mem, isRow.lineFeed_not_mem]
  | other noLineFeed => exact noLineFeed

theorem readWord_of_isNumeral {value : Int64} {word : List Char}
    (numeral : IsNumeral value.toInt word) (lineNumber : Nat) (line : List Char)
    (column : String) : readWord lineNumber line column word = .ok (.int value) := by
  rw [readWord, ofToken?_of_isNumeral numeral]

theorem readLine_of_words {snapshot : IntegerSnapshot} {line : List Char}
    (numerals : List.Forall₂ (fun value text => IsNumeral value.toInt text) snapshot.values
      (words line)) (lineNumber : Nat) : readLine lineNumber line = .ok snapshot.toSnapshot := by
  generalize cut : words line = texts at numerals
  obtain _ | ⟨index, _ | ⟨time, _ | ⟨total, _ | ⟨useful, _ | ⟨extra, _ | ⟨stack, _ | _⟩⟩⟩⟩⟩⟩ :=
    numerals
  simp only [readLine, cut, readWord_of_isNumeral index, readWord_of_isNumeral time,
    readWord_of_isNumeral total, readWord_of_isNumeral useful, readWord_of_isNumeral extra,
    readWord_of_isNumeral stack]
  rfl

theorem IsLine.readLines {shown : List IntegerSnapshot} {line seen : List Char}
    (isLine : IsLine shown line) (sameStart : isCandidate seen = isCandidate line)
    (sameWords : words seen = words line) {lineNumber : Nat} {rest : List (List Char)}
    {snapshots : List Snapshot} (restRead : readLines (lineNumber + 1) rest = .ok snapshots) :
    readLines lineNumber (seen :: rest) =
      .ok (shown.map IntegerSnapshot.toSnapshot ++ snapshots) := by
  cases isLine with
  | @snapshot snapshot leading row isGap isRow =>
    have candidate := isRow.isCandidate snapshot.index_nonneg isGap
    have blanks := fun c member => (isGap c member).1
    have numerals := isRow.runs
    have withoutCommas :
        runs ((leading ++ row).filter (· ≠ ',')) = runs (row.filter (· ≠ ',')) := by
      rw [List.filter_append, isGap.filter_comma, runs_blanks_append blanks]
    have nonempty : runs ((leading ++ row).filter (· ≠ ',')) ≠ [] := by
      intro none
      rw [← withoutCommas, none] at numerals
      cases numerals
    rw [← withoutCommas, ← words_eq_runs nonempty, ← sameWords] at numerals
    rw [HeapReport.readLines, if_pos (sameStart.trans candidate), readLine_of_words numerals,
      restRead]
    rfl
  | other _ rejected =>
    rw [HeapReport.readLines, if_neg (by simp [sameStart, rejected]), restRead]
    rfl

@[simp] theorem isCandidate_dropCarriageReturn (line : List Char) :
    isCandidate (dropCarriageReturn line) = isCandidate line := by
  rw [dropCarriageReturn]
  split
  next last =>
    obtain ⟨before, rfl⟩ := List.getLast?_eq_some_iff.1 last
    have blank : isBlank '\r' = true := by decide
    rw [List.dropLast_concat, HeapReport.isCandidate, HeapReport.isCandidate, List.dropWhile_append]
    cases start : before.dropWhile isBlank with
    | nil => simp [blank]
    | cons c rest => simp
  next => rfl

@[simp] theorem words_dropCarriageReturn (line : List Char) :
    words (dropCarriageReturn line) = words line := by
  rw [dropCarriageReturn]
  split
  next last =>
    obtain ⟨before, rfl⟩ := List.getLast?_eq_some_iff.1 last
    have blank : ∀ c ∈ ['\r'], isBlank c = true := List.all_eq_true.1 (by decide)
    have kept : ['\r'].filter (· ≠ ',') = ['\r'] := by decide
    rw [List.dropLast_concat, words, words, normalize_eq, normalize_eq, List.filter_append, kept,
      runs_append_blanks blank]
  next => rfl

/-- Every snapshot of a report is read, and nothing else. -/
theorem Renders.readLines {snapshots : List IntegerSnapshot} {text : List Char}
    (renders : Renders snapshots text) (lineNumber : Nat) :
    readLines lineNumber (lines text) = .ok (snapshots.map IntegerSnapshot.toSnapshot) := by
  induction renders generalizing lineNumber with
  | @last shown line isLine =>
    have read : HeapReport.readLines lineNumber [line] =
        .ok (shown.map IntegerSnapshot.toSnapshot ++ []) := isLine.readLines rfl rfl rfl
    rw [List.append_nil] at read
    rw [lines_of_not_mem isLine.lineFeed_not_mem]
    -- An empty line is not among the lines, but it would not be read either.
    cases line with
    | nil => exact read
    | cons => exact read
  | @line shown line ending snapshots rest isLine ends _ inductionHypothesis =>
    have restRead := inductionHypothesis (lineNumber + 1)
    have noLineFeed := isLine.lineFeed_not_mem
    rw [List.map_append]
    rcases ends with rfl | rfl
    · rw [List.append_assoc, List.singleton_append, lines_append_lineFeed noLineFeed]
      exact isLine.readLines (isCandidate_dropCarriageReturn line) (words_dropCarriageReturn line)
        restRead
    · have noLineFeed' : '\n' ∉ line ++ ['\r'] := by simp [noLineFeed]
      have regrouped : line ++ ['\r', '\n'] ++ rest = (line ++ ['\r']) ++ '\n' :: rest := by simp
      rw [regrouped, lines_append_lineFeed noLineFeed', dropCarriageReturn_concat]
      exact isLine.readLines rfl rfl restRead

/-- A report is read as the snapshots that it was written from, whatever its layout. -/
theorem read?_of_renders {snapshots : List IntegerSnapshot} {text : List Char}
    (renders : Renders snapshots text) :
    read? (String.ofList text) = .ok ⟨snapshots.map IntegerSnapshot.toSnapshot⟩ := by
  rw [read?, String.toList_ofList, renders.readLines]
  rfl

/-- Grouped digits, gaps of tabs and of wide spaces, an ignored line and both line ends. -/
theorem read?_of_renders_grouped :
    Renders [⟨0, 1234, 2048, 2000, -48, 9223372036854775807, by decide⟩]
      "desc: 12\r\n 0\t1,234, 2,048,\u3000 2000 -4,8 9,223,372,036,854,775,807\u2003\n".toList ∧
    read? "desc: 12\r\n 0\t1,234, 2,048,\u3000 2000 -4,8 9,223,372,036,854,775,807\u2003\n" =
      .ok ⟨[⟨.int 0, .int 1234, .int 2048, .int 2000, .int (-48), .int 9223372036854775807⟩]⟩ := by
  have index : IsField 0 "0".toList := isField_of_intText (by decide) (by decide)
  have time : IsField 1234 "1,234,".toList := isField_of_intText (by decide) (by decide)
  have total : IsField 2048 "2,048,".toList := isField_of_intText (by decide) (by decide)
  have useful : IsField 2000 "2000".toList := isField_of_intText (by decide) (by decide)
  have extra : IsField (-48) "-4,8".toList := isField_of_intText (by decide) (by decide)
  have stack : IsField 9223372036854775807 "9,223,372,036,854,775,807".toList :=
    isField_of_intText (by decide) (by decide)
  have space : IsGap " ".toList := by decide
  have tab : IsGap "\t".toList := by decide
  have wide : IsGap "\u3000 ".toList := by decide
  have trailing : IsGap "\u2003".toList := by decide
  have row := IsRow.cons index tab (by decide) <| .cons time space (by decide) <|
    .cons total wide (by decide) <| .cons useful space (by decide) <|
    .cons extra space (by decide) <| .last stack trailing
  have shown : IsLine [⟨0, 1234, 2048, 2000, -48, 9223372036854775807, by decide⟩] _ :=
    .snapshot space row
  have ignored : IsLine [] "desc: 12".toList := .other (by decide) (by decide)
  have empty : IsLine [] [] := .other (by decide) (by decide)
  have renders := Renders.line ignored (Or.inr rfl) (.line shown (Or.inl rfl) (.last empty))
  exact ⟨renders, read?_of_renders renders⟩

end BenchStats.HeapReport
