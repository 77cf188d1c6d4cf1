import BenchStats.HeapReport.Line
import BenchStats.Proofs.Outcome
import BenchStats.Proofs.Text.Joined
import BenchStats.Proofs.Text.Spacing

/-!
# The words of a line

A line that holds more than commas and blanks is normalized to its words with one space between
them.  The words decide how the line is read: the line itself and its number show in errors only.
-/

namespace BenchStats.HeapReport

open Text

/-! ### Normal forms -/

theorem normalize_eq (line : List Char) :
    normalize line = [' '].intercalate (runs (line.filter (· ≠ ','))) :=
  collapse_trim _

theorem words_eq_runs {line : List Char} (nonempty : runs (line.filter (· ≠ ',')) ≠ []) :
    words line = runs (line.filter (· ≠ ',')) :=
  splitOn_collapse_trim nonempty

theorem mem_normalize {line : List Char} {c : Char} (member : c ∈ normalize line) :
    c ≠ ',' ∧ (isBlank c = true → c = ' ') := by
  rw [normalize_eq] at member
  rcases mem_intercalate member with space | ⟨run, inRuns, inRun⟩
  · rw [List.mem_singleton.1 space]
    decide
  · have kept := mem_of_mem_runs inRuns inRun
    have solid := (mem_runs inRuns).2 c inRun
    exact ⟨by simpa using (List.mem_filter.1 kept).2, by simp [solid]⟩

@[simp]
theorem normalize_normalize (line : List Char) : normalize (normalize line) = normalize line := by
  have noComma : (normalize line).filter (· ≠ ',') = normalize line :=
    List.filter_eq_self.2 fun c member => by simpa using (mem_normalize member).1
  have sameRuns : runs (normalize line) = runs (line.filter (· ≠ ',')) := by
    rw [normalize_eq]
    exact runs_intercalate (fun run member => (mem_runs member).1)
      fun run member => (mem_runs member).2
  rw [normalize_eq (normalize line), noComma, sameRuns, ← normalize_eq]

theorem head?_normalize_of_isCandidate {line : List Char} (candidate : isCandidate line = true) :
    ∃ digit, isDecimalDigit digit = true ∧ isBlank digit = false ∧
      (line.dropWhile isBlank).head? = some digit ∧ (normalize line).head? = some digit := by
  obtain ⟨digit, first, isDigit⟩ := (Option.any_eq_true _ _).1 candidate
  obtain ⟨rest, dropped⟩ := List.head?_eq_some_iff.1 first
  have solid : isBlank digit = false := by
    have head := List.head?_dropWhile_not isBlank line
    simpa [first] using head
  have noComma : digit ≠ ',' := by
    rintro rfl
    exact absurd isDigit (by decide)
  refine ⟨digit, isDigit, solid, first, ?_⟩
  have blanks : ∀ c ∈ (line.takeWhile isBlank).filter (· ≠ ','), isBlank c = true :=
    fun c member => List.mem_takeWhile_imp (List.mem_of_mem_filter member)
  have shape : line.filter (· ≠ ',') =
      (line.takeWhile isBlank).filter (· ≠ ',') ++ digit :: rest.filter (· ≠ ',') := by
    rw [← List.filter_cons_of_pos (by simpa using noComma), ← dropped, ← List.filter_append,
      List.takeWhile_append_dropWhile]
  rw [normalize_eq, head?_intercalate_runs, shape, List.dropWhile_append_of_pos blanks,
    List.dropWhile_cons_of_neg (by simp [solid])]
  rfl

@[simp] theorem isCandidate_of_head? {line : List Char} {digit : Char}
    (isDigit : isDecimalDigit digit = true) (solid : isBlank digit = false)
    (first : line.head? = some digit) : isCandidate line = true := by
  obtain ⟨rest, rfl⟩ := List.head?_eq_some_iff.1 first
  rw [isCandidate, List.dropWhile_cons_of_neg (by simp [solid])]
  exact isDigit

/-! ### Reading -/

/-- The same defect on another line. -/
def LineError.moveTo (lineNumber : Nat) (line : List Char) : LineError → LineError
  | .wordCount _ _ count => .wordCount lineNumber (String.ofList line) count
  | .nonNumeric _ _ column word => .nonNumeric lineNumber (String.ofList line) column word

/-- A line is read by its words alone. -/
theorem readLine_of_same_words {line other : List Char} (same : words other = words line)
    (lineNumber otherNumber : Nat) :
    readLine otherNumber other =
      (readLine lineNumber line).mapError (LineError.moveTo otherNumber other) := by
  have moved (column : String) (word : List Char) : readWord otherNumber other column word =
      (readWord lineNumber line column word).mapError (LineError.moveTo otherNumber other) := by
    unfold readWord
    split <;> rfl
  unfold readLine
  rw [same]
  split
  · simp only [mapError_bind, moved]
    rfl
  · rfl

/-- The numbers that words stand for under their columns. -/
def readColumns (lineNumber : Nat) (line : List Char) :
    List String → List (List Char) → Except LineError (List Number)
  | column :: columns, word :: words => do
    let number ← readWord lineNumber line column word
    let numbers ← readColumns lineNumber line columns words
    return number :: numbers
  | _, _ => .ok []

theorem map_values_readLine {lineNumber : Nat} {line : List Char}
    (six : (words line).length = Snapshot.columns.length) :
    Snapshot.values <$> readLine lineNumber line =
      readColumns lineNumber line Snapshot.columns (words line) := by
  obtain ⟨index, time, total, useful, extra, stack, cut⟩ :
      ∃ index time total useful extra stack,
        words line = [index, time, total, useful, extra, stack] := by
    match words line, six with
    | [index, time, total, useful, extra, stack], _ =>
      exact ⟨index, time, total, useful, extra, stack, rfl⟩
  simp only [readLine, cut, readColumns, Snapshot.columns, map_bind, bind_assoc, map_pure,
    pure_bind]
  rfl

/-- The number that a word stands for. -/
def numberOf? (word : List Char) : Option Number := Number.read? (String.ofList word)

theorem ofToken?_of_solid {word : List Char} (solid : ∀ c ∈ word, isBlank c = false) :
    Number.ofToken? word = numberOf? word := by
  rw [numberOf?, Number.read?, String.toList_ofList, trim_of_solid solid]

/-- The first word under its column that stands for no number. -/
def firstRejected (columns : List String) (words : List (List Char)) :
    Option (String × List Char) :=
  (columns.zip words).find? fun (_, word) => (numberOf? word).isNone

/-- Words are read as their numbers, or the first of them that has none is the defect. -/
theorem readColumns_cases {lineNumber : Nat} {line : List Char} {columns : List String}
    {words : List (List Char)} (fits : words.length = columns.length)
    (solid : ∀ word ∈ words, ∀ c ∈ word, isBlank c = false) :
    (∃ numbers, words.map numberOf? = numbers.map some ∧
        readColumns lineNumber line columns words = .ok numbers) ∨
      ∃ column word, firstRejected columns words = some (column, word) ∧
        readColumns lineNumber line columns words =
          .error (.nonNumeric lineNumber (String.ofList line) column (String.ofList word)) := by
  induction columns generalizing words with
  | nil =>
    cases List.eq_nil_of_length_eq_zero fits
    exact Or.inl ⟨[], rfl, rfl⟩
  | cons column columns inductionHypothesis =>
    cases words with
    | nil => cases fits
    | cons word words =>
      rw [List.forall_mem_cons] at solid
      have token := ofToken?_of_solid solid.1
      cases found : numberOf? word with
      | none =>
        rw [found] at token
        refine Or.inr ⟨column, word, ?_, ?_⟩
        · simp [firstRejected, found]
        · rw [readColumns, readWord, token]
          rfl
      | some number =>
        rw [found] at token
        have here : readWord lineNumber line column word = .ok number := by rw [readWord, token]
        have later := inductionHypothesis (Nat.succ.inj fits) solid.2
        rcases later with ⟨numbers, values, read⟩ | ⟨otherColumn, other, first, failed⟩
        · refine Or.inl ⟨number :: numbers, ?_, ?_⟩
          · rw [List.map_cons, found, values, List.map_cons]
          · rw [readColumns, here, read]
            rfl
        · refine Or.inr ⟨otherColumn, other, ?_, ?_⟩
          · rw [firstRejected, List.zip_cons_cons, List.find?_cons_of_neg (by simp [found])]
            exact first
          · rw [readColumns, here, failed]
            rfl

/-- What a line with the given words is read as: six numbers are a snapshot, and else the number of
the words or the first word without a number is the defect. -/
inductive ReadsAs (lineNumber : Nat) (line : List Char) (words : List (List Char)) :
    Except LineError Snapshot → Prop where
  | wordCount : words.length ≠ Snapshot.columns.length →
      ReadsAs lineNumber line words
        (.error (.wordCount lineNumber (String.ofList line) words.length))
  | nonNumeric {column word} : words.length = Snapshot.columns.length →
      firstRejected Snapshot.columns words = some (column, word) →
      ReadsAs lineNumber line words
        (.error (.nonNumeric lineNumber (String.ofList line) column (String.ofList word)))
  | snapshot {snapshot : Snapshot} : words.map numberOf? = snapshot.values.map some →
      ReadsAs lineNumber line words (.ok snapshot)

theorem readsAs_readLine {line : List Char}
    (solid : ∀ word ∈ words line, ∀ c ∈ word, isBlank c = false) (lineNumber : Nat) :
    ReadsAs lineNumber line (words line) (readLine lineNumber line) := by
  by_cases six : (words line).length = Snapshot.columns.length
  · have read := @map_values_readLine lineNumber line six
    rcases readColumns_cases six solid with
      ⟨numbers, values, columns⟩ | ⟨column, word, first, columns⟩
    · rw [columns] at read
      cases result : readLine lineNumber line with
      | error defect =>
        rw [result] at read
        cases read
      | ok snapshot =>
        rw [result] at read
        cases read
        exact .snapshot values
    · rw [columns] at read
      cases result : readLine lineNumber line with
      | error defect =>
        rw [result] at read
        cases read
        exact .nonNumeric six first
      | ok snapshot =>
        rw [result] at read
        cases read
  · have refused : readLine lineNumber line =
        .error (.wordCount lineNumber (String.ofList line) (words line).length) := by
      unfold readLine
      split
      next cut => exact absurd (congrArg List.length cut) six
      next => rfl
    rw [refused]
    exact .wordCount six

theorem firstRejected_eq_none {columns : List String} {words : List (List Char)}
    {numbers : List Number} (values : words.map numberOf? = numbers.map some) :
    firstRejected columns words = none := by
  refine List.find?_eq_none.2 fun (column, word) member => ?_
  have read : numberOf? word ∈ numbers.map some :=
    values ▸ List.mem_map_of_mem (List.of_mem_zip member).2
  obtain ⟨number, -, found⟩ := List.mem_map.1 read
  simp [← found]

theorem length_of_values {words : List (List Char)} {snapshot : Snapshot}
    (values : words.map numberOf? = snapshot.values.map some) :
    words.length = Snapshot.columns.length := by
  have same := congrArg List.length values
  rw [List.length_map, List.length_map] at same
  exact same

theorem ReadsAs.eq {lineNumber : Nat} {line : List Char} {words : List (List Char)}
    {outcome other : Except LineError Snapshot} (reads : ReadsAs lineNumber line words outcome)
    (reads' : ReadsAs lineNumber line words other) : outcome = other := by
  cases reads with
  | wordCount wrong =>
    cases reads' with
    | wordCount => rfl
    | nonNumeric six => exact absurd six wrong
    | snapshot values => exact absurd (length_of_values values) wrong
  | nonNumeric six first =>
    cases reads' with
    | wordCount wrong => exact absurd six wrong
    | nonNumeric _ first' =>
      cases first.symm.trans first'
      rfl
    | snapshot values => cases first.symm.trans (firstRejected_eq_none values)
  | snapshot values =>
    cases reads' with
    | wordCount wrong => exact absurd (length_of_values values) wrong
    | nonNumeric _ first => cases first.symm.trans (firstRejected_eq_none values)
    | @snapshot snapshot' values' =>
      have same := (List.map_inj_right fun _ _ => Option.some.inj).1 (values.symm.trans values')
      have whole := Snapshot.ofValues?_values snapshot'
      rw [← same, Snapshot.ofValues?_values] at whole
      cases whole
      rfl

/-- A line has a character that is no comma and not blank. -/
def HasText (line : List Char) : Prop := ∃ c ∈ line, c ≠ ',' ∧ isBlank c = false

theorem HasText.runs_ne_nil {line : List Char} (hasText : HasText line) :
    runs (line.filter (· ≠ ',')) ≠ [] := by
  obtain ⟨c, member, noComma, solid⟩ := hasText
  intro none
  have blank := runs_eq_nil_iff.1 none c (List.mem_filter.2 ⟨member, by simpa using noComma⟩)
  rw [solid] at blank
  cases blank

/-- Normalizing a line leaves exactly its words, the longest runs of characters that are not blank
once the commas are deleted, with one space between them.  A candidate stays one, with the same
digit in front.  The words alone decide what a line is read as. -/
theorem normalize_leaves_words {line : List Char} (hasText : HasText line) :
    (',' ∉ normalize line ∧ SingleSpaced (normalize line)) ∧
    IsRuns (line.filter (· ≠ ',')) ((normalize line).splitOn ' ') ∧
    normalize (normalize line) = normalize line ∧
    (isCandidate line = true → ∃ digit, isDecimalDigit digit = true ∧
      (line.dropWhile isBlank).head? = some digit ∧ (normalize line).head? = some digit ∧
      isCandidate (normalize line) = true) ∧
    ∀ found, IsRuns (line.filter (· ≠ ',')) found →
      (∀ lineNumber outcome,
        readLine lineNumber line = outcome ↔ ReadsAs lineNumber line found outcome) ∧
      ∀ other, IsRuns (other.filter (· ≠ ',')) found → ∀ lineNumber otherNumber,
        readLine otherNumber other =
          (readLine lineNumber line).mapError (LineError.moveTo otherNumber other) := by
  have words_eq := words_eq_runs hasText.runs_ne_nil
  refine ⟨⟨?noComma, ?singleSpaced⟩, ?runs, normalize_normalize line, ?candidate, ?reading⟩
  case noComma => exact fun member => (mem_normalize member).1 rfl
  case singleSpaced =>
    apply singleSpaced_of_pieces
    · rw [← words, words_eq]
      exact fun empty => (mem_runs empty).1 rfl
    · exact fun c member => (mem_normalize member).2
  case runs => exact isRuns_iff.2 words_eq.symm
  case candidate =>
    intro candidate
    obtain ⟨digit, isDigit, solid, first, stays⟩ := head?_normalize_of_isCandidate candidate
    exact ⟨digit, isDigit, first, stays, isCandidate_of_head? isDigit solid stays⟩
  case reading =>
    rintro found isRuns
    obtain rfl := isRuns.runs_eq
    constructor
    · intro lineNumber outcome
      have reads : ReadsAs lineNumber line _ (readLine lineNumber line) :=
        readsAs_readLine (fun word member => (mem_runs (words_eq ▸ member)).2) lineNumber
      rw [words_eq] at reads
      exact ⟨fun same => same ▸ reads, fun reads' => reads.eq reads'⟩
    · intro other otherRuns
      have nonempty := otherRuns.runs_eq ▸ hasText.runs_ne_nil
      apply readLine_of_same_words
      rw [words_eq, words_eq_runs nonempty, otherRuns.runs_eq]

/-- A wide space in front, a comma that stands alone, a comma inside of a word, and a word that is
no number; the same words on another line are the same defect. -/
theorem normalize_leaves_words_mixed :
    HasText "\u2003 7 , 12,\tx,y 4 5  6 ".toList ∧
    normalize "\u2003 7 , 12,\tx,y 4 5  6 ".toList = "7 12 xy 4 5 6".toList ∧
    readLine 3 "\u2003 7 , 12,\tx,y 4 5  6 ".toList =
      .error (.nonNumeric 3 "\u2003 7 , 12,\tx,y 4 5  6 " "total(B)" "xy") ∧
    readLine 8 "7\t12 xy 4 5 6".toList =
      .error (.nonNumeric 8 "7\t12 xy 4 5 6" "total(B)" "xy") := by
  have hasText : HasText "\u2003 7 , 12,\tx,y 4 5  6 ".toList := ⟨'7', by decide⟩
  obtain ⟨-, -, -, -, reading⟩ := normalize_leaves_words hasText
  have found : ["7", "12", "xy", "4", "5", "6"].map String.toList =
      runs ("\u2003 7 , 12,\tx,y 4 5  6 ".toList.filter (· ≠ ',')) := by decide
  have others : ["7", "12", "xy", "4", "5", "6"].map String.toList =
      runs ("7\t12 xy 4 5 6".toList.filter (· ≠ ',')) := by decide
  have first :
      firstRejected Snapshot.columns (["7", "12", "xy", "4", "5", "6"].map String.toList) =
        some ("total(B)", "xy".toList) := by decide
  obtain ⟨reads, same⟩ := reading _ (isRuns_iff.2 found.symm)
  have refused := (reads 3 _).2 (.nonNumeric rfl first)
  refine ⟨hasText, by decide, refused, ?_⟩
  rw [same _ (isRuns_iff.2 others.symm) 3 8, refused]
  rfl

end BenchStats.HeapReport
