import BenchStats.HeapReport.Basic
import BenchStats.Proofs.Outcome
import Mathlib.Data.List.Basic

/-!
# Reading all of a report or nothing

A report is read line by line and the first defect ends the reading.  So a closed part at its start
is read on its own, what follows goes on with the line numbers where that part ended, and a report
is accepted exactly if every line that looks like a snapshot is one.
-/

namespace BenchStats.HeapReport

open Text

/-- The same defect in a text that has some more lines in front. -/
def LineError.shift (count : Nat) : LineError → LineError
  | .wordCount lineNumber line words => .wordCount (lineNumber + count) line words
  | .nonNumeric lineNumber line column word => .nonNumeric (lineNumber + count) line column word

theorem readWord_add (lineNumber count : Nat) (line : List Char) (column : String)
    (word : List Char) :
    readWord (lineNumber + count) line column word =
      (readWord lineNumber line column word).mapError (LineError.shift count) := by
  unfold readWord
  split <;> rfl

theorem readLine_add (lineNumber count : Nat) (line : List Char) :
    readLine (lineNumber + count) line =
      (readLine lineNumber line).mapError (LineError.shift count) := by
  unfold readLine
  split
  · simp only [mapError_bind, readWord_add]
    rfl
  · rfl

theorem readLines_add (lineNumber count : Nat) (lines : List (List Char)) :
    readLines (lineNumber + count) lines =
      (readLines lineNumber lines).mapError (LineError.shift count) := by
  induction lines generalizing lineNumber with
  | nil => rfl
  | cons line rest inductionHypothesis =>
    have restShifted := inductionHypothesis (lineNumber + 1)
    rw [Nat.add_right_comm] at restShifted
    rw [readLines, readLines]
    split
    · simp only [readLine_add, restShifted, mapError_bind]
      rfl
    · exact restShifted

/-- A line is read as a snapshot, wherever it stands. -/
def Shows (line : List Char) (snapshot : Snapshot) : Prop :=
  ∀ lineNumber, readLine lineNumber line = .ok snapshot

theorem shows_of_readLine {lineNumber : Nat} {line : List Char} {snapshot : Snapshot}
    (read : readLine lineNumber line = .ok snapshot) : Shows line snapshot := by
  intro other
  have here := readLine_add 0 lineNumber line
  have there := readLine_add 0 other line
  rw [Nat.zero_add] at here there
  cases first : readLine 0 line with
  | error defect =>
    rw [first, read] at here
    cases here
  | ok value =>
    rw [first, read] at here
    cases here
    rw [there, first]
    rfl

theorem lineNumber_of_readWord {lineNumber : Nat} {line word : List Char} {column : String}
    {defect : LineError} (failed : readWord lineNumber line column word = .error defect) :
    defect.lineNumber = lineNumber := by
  unfold readWord at failed
  split at failed
  · cases failed
  · cases failed
    rfl

theorem lineNumber_of_readLine {lineNumber : Nat} {line : List Char} {defect : LineError}
    (failed : readLine lineNumber line = .error defect) : defect.lineNumber = lineNumber := by
  unfold readLine at failed
  split at failed
  · -- Each of the six words may be the one that fails.
    iterate 6
      obtain failed | ⟨_, -, failed⟩ := bind_eq_error failed
      · exact lineNumber_of_readWord failed
    cases failed
  · cases failed
    rfl

theorem readLines_append (lineNumber : Nat) (first second : List (List Char)) :
    readLines lineNumber (first ++ second) = do
      let snapshots ← readLines lineNumber first
      let more ← readLines (lineNumber + first.length) second
      return snapshots ++ more := by
  induction first generalizing lineNumber with
  | nil =>
    rw [List.nil_append]
    exact (bind_pure _).symm
  | cons line rest inductionHypothesis =>
    have restRead := inductionHypothesis (lineNumber + 1)
    rw [Nat.add_assoc, Nat.add_comm 1] at restRead
    rw [List.cons_append, readLines, readLines]
    split
    · simp only [restRead, bind_assoc, pure_bind]
      rfl
    · exact restRead

/-- Lines are accepted if those that look like snapshots are, and give them in order. -/
theorem readLines_eq_ok_iff {lineNumber : Nat} {lines : List (List Char)}
    {snapshots : List Snapshot} :
    readLines lineNumber lines = .ok snapshots ↔
      List.Forall₂ Shows (lines.filter isCandidate) snapshots := by
  induction lines generalizing lineNumber snapshots with
  | nil =>
    constructor
    · intro read
      cases read
      exact .nil
    · intro shown
      cases shown
      rfl
  | cons line rest inductionHypothesis =>
    cases candidate : isCandidate line with
    | false =>
      rw [List.filter_cons_of_neg (by simp [candidate]), readLines, if_neg (by simp [candidate])]
      exact inductionHypothesis
    | true =>
      rw [List.filter_cons_of_pos candidate, readLines, if_pos candidate]
      constructor
      · intro read
        obtain ⟨snapshot, first, read⟩ := bind_eq_ok read
        obtain ⟨more, others, read⟩ := bind_eq_ok read
        cases read
        exact .cons (shows_of_readLine first) (inductionHypothesis.1 others)
      · rintro (_ | ⟨first, others⟩)
        rw [first lineNumber, inductionHypothesis.2 others]
        rfl

/-- The defect of the first line that looks like a snapshot and is none; lines are counted from
`lineNumber` on, and all of them count. -/
def FirstDefect (lineNumber : Nat) (lines : List (List Char)) (defect : LineError) : Prop :=
  ∃ before line after, lines = before ++ line :: after ∧
    (∀ earlier ∈ before, isCandidate earlier = true → ∃ snapshot, Shows earlier snapshot) ∧
    isCandidate line = true ∧ defect.lineNumber = lineNumber + before.length ∧
    readLine defect.lineNumber line = .error defect

theorem FirstDefect.here {lineNumber : Nat} {line : List Char} {defect : LineError}
    (candidate : isCandidate line = true) (failed : readLine lineNumber line = .error defect)
    (rest : List (List Char)) : FirstDefect lineNumber (line :: rest) defect := by
  have number := lineNumber_of_readLine failed
  exact ⟨[], line, rest, rfl, by simp, candidate, number, number ▸ failed⟩

theorem FirstDefect.later {lineNumber : Nat} {line : List Char} {rest : List (List Char)}
    {defect : LineError} (inOrder : isCandidate line = true → ∃ snapshot, Shows line snapshot)
    (first : FirstDefect (lineNumber + 1) rest defect) :
    FirstDefect lineNumber (line :: rest) defect := by
  obtain ⟨before, found, after, rfl, earlier, candidate, number, failed⟩ := first
  refine ⟨line :: before, found, after, rfl, ?_, candidate, ?_, failed⟩
  · exact List.forall_mem_cons.2 ⟨inOrder, earlier⟩
  · rw [number, List.length_cons]
    omega

/-- Lines are refused for their first defect. -/
theorem readLines_eq_error_iff {lineNumber : Nat} {lines : List (List Char)}
    {defect : LineError} :
    readLines lineNumber lines = .error defect ↔ FirstDefect lineNumber lines defect := by
  constructor
  · intro failed
    induction lines generalizing lineNumber with
    | nil => cases failed
    | cons line rest inductionHypothesis =>
      rw [readLines] at failed
      split at failed
      next candidate =>
        obtain lineFailed | ⟨snapshot, read, failed⟩ := bind_eq_error failed
        · exact .here candidate lineFailed rest
        obtain restFailed | ⟨_, -, impossible⟩ := bind_eq_error failed
        · exact (inductionHypothesis restFailed).later fun _ => ⟨snapshot, shows_of_readLine read⟩
        · cases impossible
      next rejected =>
        exact (inductionHypothesis failed).later fun candidate => absurd candidate rejected
  · rintro ⟨before, line, after, rfl, earlier, candidate, number, failed⟩
    induction before generalizing lineNumber with
    | nil =>
      rw [List.length_nil, Nat.add_zero] at number
      rw [List.nil_append, readLines, if_pos candidate, ← number, failed]
      rfl
    | cons head others inductionHypothesis =>
      obtain ⟨headInOrder, othersInOrder⟩ := List.forall_mem_cons.1 earlier
      rw [List.length_cons, Nat.add_comm others.length, ← Nat.add_assoc] at number
      rw [List.cons_append, readLines, inductionHypothesis othersInOrder number]
      split
      next headCandidate =>
        obtain ⟨snapshot, shows⟩ := headInOrder headCandidate
        rw [shows lineNumber]
        rfl
      next => rfl

theorem read?_append {first : String} (closed : Closed first.toList) (second : String) :
    read? (first ++ second) =
      match read? first, read? second with
      | .error defect, _ => .error defect
      | .ok _, .error defect => .error (defect.shift (first.toList.count '\n'))
      | .ok report, .ok more => .ok ⟨report.snapshots ++ more.snapshots⟩ := by
  unfold read?
  rw [String.toList_append, closed.lines_append, readLines_append, readLines_add,
    closed.length_lines]
  cases readLines 1 (lines first.toList) with
  | error defect => rfl
  | ok snapshots => cases readLines 1 (lines second.toList) <;> rfl

theorem read?_eq_ok_iff {text : String} {report : HeapReport} :
    read? text = .ok report ↔ readLines 1 (lines text.toList) = .ok report.snapshots := by
  unfold read?
  cases readLines 1 (lines text.toList) with
  | error defect => constructor <;> exact nofun
  | ok snapshots =>
    constructor
    · rintro ⟨⟩
      rfl
    · rintro ⟨⟩
      rfl

theorem read?_eq_error_iff {text : String} {defect : LineError} :
    read? text = .error defect ↔ readLines 1 (lines text.toList) = .error defect := by
  unfold read?
  cases readLines 1 (lines text.toList) with
  | error cause =>
    constructor
    · rintro ⟨⟩
      rfl
    · rintro ⟨⟩
      rfl
  | ok snapshots => constructor <;> exact nofun

/-- Reading is all or nothing and goes on where a closed part ends.  A defect in that part is the
defect of the whole; one in what follows keeps everything but its line number, which counts on; and
without any the snapshots of both come in order.  So a report is accepted exactly if each line that
looks like a snapshot is one, and it gives these in order; else it is refused for its first
defect. -/
theorem reading_all_or_nothing :
    (∀ first second : String, Closed first.toList →
      read? (first ++ second) =
        match read? first, read? second with
        | .error defect, _ => .error defect
        | .ok _, .error defect => .error (defect.shift (first.toList.count '\n'))
        | .ok report, .ok more => .ok ⟨report.snapshots ++ more.snapshots⟩) ∧
    (∀ (text : String) (report : HeapReport), read? text = .ok report ↔
      List.Forall₂ Shows ((lines text.toList).filter isCandidate) report.snapshots) ∧
    ∀ (text : String) (defect : LineError),
      read? text = .error defect ↔ FirstDefect 1 (lines text.toList) defect := by
  refine ⟨?_, ?_, ?_⟩
  · intro first second closed
    exact read?_append closed second
  · intro text report
    rw [read?_eq_ok_iff, readLines_eq_ok_iff]
  · intro text defect
    rw [read?_eq_error_iff, readLines_eq_error_iff]

/-- An ignored line with its return, a snapshot, and a defect behind them. -/
theorem reading_all_or_nothing_later_defect :
    Closed "desc: 1\r\n 7 12 2,048 1 1 0\n".toList ∧
    read? ("desc: 1\r\n 7 12 2,048 1 1 0\n" ++ "cmd: a\n8 1e3 0x1 0 0 0\n9") =
      .error (.nonNumeric 4 "8 1e3 0x1 0 0 0" "total(B)" "0x1") := by
  have closed : Closed "desc: 1\r\n 7 12 2,048 1 1 0\n".toList :=
    Or.inr ⟨"desc: 1\r\n 7 12 2,048 1 1 0".toList, rfl⟩
  have whole := reading_all_or_nothing.1 _ "cmd: a\n8 1e3 0x1 0 0 0\n9" closed
  have first : read? "desc: 1\r\n 7 12 2,048 1 1 0\n" =
      .ok ⟨[⟨.int 7, .int 12, .int 2048, .int 1, .int 1, .int 0⟩]⟩ := by decide +kernel
  have second : read? "cmd: a\n8 1e3 0x1 0 0 0\n9" =
      .error (.nonNumeric 2 "8 1e3 0x1 0 0 0" "total(B)" "0x1") := by decide +kernel
  rw [first, second] at whole
  exact ⟨closed, whole⟩

end BenchStats.HeapReport
