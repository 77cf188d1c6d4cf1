import BenchStats.Table.Basic

/-!
# Comma-separated text

Reading and writing tables as comma-separated text. A double quote anywhere in a field starts a
quoted section, in which commas and line ends stand for themselves and a double quote is written
twice. A line feed, a carriage return or both end a record, and a record without any content is
skipped. The first record is the header; shorter records are filled up with empty cells.
-/

namespace BenchStats

inductive CsvError where
  | missingHeader
  /-- A record is wider than the header; rows count from one and leave the header out. -/
  | raggedRow (row expected found : Nat)
  /-- The text ends inside a quoted section that starts on the given line. -/
  | unterminatedQuote (line : Nat)
  deriving DecidableEq

def CsvError.message : CsvError → String
  | .missingHeader => "input has no header row"
  | .raggedRow row expected found => s!"row {row} has {found} fields, header has {expected}"
  | .unterminatedQuote line => s!"unterminated quoted field starting on line {line}"

namespace Csv

/-- Where a reader stands between two characters. -/
inductive Mode where
  | plain
  /-- Behind a carriage return that ended a record; a line feed belongs to the same end. -/
  | afterReturn
  /-- Inside a quoted section that starts on the given line. -/
  | quoted (start : Nat)
  /-- Behind a double quote that ends the section unless another one follows. -/
  | afterQuote (start : Nat)
  deriving DecidableEq

/-- What has been read so far; all lists hold the last element first. -/
structure Reader where
  mode : Mode
  records : List (List String)
  fields : List String
  field : List Char
  line : Nat
  /-- Whether the current record has any content; even an empty quoted section counts. -/
  started : Bool

namespace Reader

def initial : Reader := ⟨.plain, [], [], [], 1, false⟩

def push (r : Reader) (c : Char) : Reader := { r with field := c :: r.field }

def endField (r : Reader) : Reader :=
  { r with fields := String.ofList r.field.reverse :: r.fields, field := [] }

/-- Ends the current record, which is kept only if it has content. -/
def endRecord (r : Reader) : Reader :=
  if r.started then
    { r with records := r.endField.fields.reverse :: r.records, fields := [], field := [],
             started := false }
  else r

def plainStep (r : Reader) (c : Char) : Reader :=
  if c = '"' then { r with mode := .quoted r.line, started := true }
  else if c = ',' then { r.endField with mode := .plain, started := true }
  else if c = '\n' then { r.endRecord with mode := .plain, line := r.line + 1 }
  else if c = '\r' then { r.endRecord with mode := .afterReturn, line := r.line + 1 }
  else { r.push c with mode := .plain, started := true }

def step (r : Reader) (c : Char) : Reader :=
  match r.mode with
  | .plain => r.plainStep c
  | .afterReturn => if c = '\n' then { r with mode := .plain } else r.plainStep c
  | .quoted start =>
    if c = '"' then { r with mode := .afterQuote start }
    else { r.push c with line := if c = '\n' then r.line + 1 else r.line }
  | .afterQuote start =>
    if c = '"' then { r.push c with mode := .quoted start } else r.plainStep c

def finish (r : Reader) : Except CsvError (List (List String)) :=
  match r.mode with
  | .quoted start => .error (.unterminatedQuote start)
  | _ => .ok r.endRecord.records.reverse

end Reader

def records (text : List Char) : Except CsvError (List (List String)) :=
  (text.foldl Reader.step Reader.initial).finish

/-- Records filled up to a width; the first one that is wider is refused. -/
def fitRows (width : Nat) : Nat → List (List String) → Except CsvError (List (List String))
  | _, [] => .ok []
  | row, record :: rest =>
    if width < record.length then .error (.raggedRow row width record.length)
    else do
      let rows ← fitRows width (row + 1) rest
      return (record ++ List.replicate (width - record.length) "") :: rows

theorem length_of_mem_fitRows {width row : Nat} {records rows : List (List String)}
    (fitted : fitRows width row records = .ok rows) : ∀ r ∈ rows, r.length = width := by
  induction records generalizing row rows with
  | nil =>
    cases fitted
    simp
  | cons record rest inductionHypothesis =>
    unfold fitRows at fitted
    split at fitted
    · cases fitted
    · cases others : fitRows width (row + 1) rest with
      | error e =>
        rw [others] at fitted
        cases fitted
      | ok tail =>
        rw [others] at fitted
        cases fitted
        intro r member
        rcases List.mem_cons.1 member with rfl | old
        · simp
          omega
        · exact inductionHypothesis others r old

theorem fitRows_of_le {width : Nat} {rows : List (List String)}
    (fits : ∀ row ∈ rows, row.length ≤ width) (row : Nat) :
    fitRows width row rows =
      .ok (rows.map fun row => row ++ List.replicate (width - row.length) "") := by
  induction rows generalizing row with
  | nil => rfl
  | cons record rest inductionHypothesis =>
    have narrow : ¬ width < record.length := Nat.not_lt.2 (fits record List.mem_cons_self)
    have restFits := inductionHypothesis fun r member => fits r (List.mem_cons_of_mem _ member)
    rw [fitRows, if_neg narrow, restFits]
    rfl

theorem fitRows_of_lt {width : Nat} {before after : List (List String)} {wide : List String}
    (fits : ∀ row ∈ before, row.length ≤ width) (tooWide : width < wide.length) (row : Nat) :
    fitRows width row (before ++ wide :: after) =
      .error (.raggedRow (row + before.length) width wide.length) := by
  induction before generalizing row with
  | nil => simp [fitRows, tooWide]
  | cons record rest inductionHypothesis =>
    have narrow : ¬ width < record.length := Nat.not_lt.2 (fits record List.mem_cons_self)
    have restFits := inductionHypothesis fun r member => fits r (List.mem_cons_of_mem _ member)
    rw [List.cons_append, fitRows, if_neg narrow, restFits, List.length_cons,
      Nat.add_right_comm, Nat.add_assoc]
    rfl

theorem length_fitRows {width row : Nat} {records rows : List (List String)}
    (fitted : fitRows width row records = .ok rows) : rows.length = records.length := by
  induction records generalizing row rows with
  | nil =>
    cases fitted
    rfl
  | cons record rest inductionHypothesis =>
    unfold fitRows at fitted
    split at fitted
    · cases fitted
    · cases others : fitRows width (row + 1) rest with
      | error e =>
        rw [others] at fitted
        cases fitted
      | ok tail =>
        rw [others] at fitted
        cases fitted
        simpa using inductionHypothesis others

/-- Whether a field is written between double quotes. -/
def needsQuotes (field : List Char) : Bool :=
  field.any fun c => c = ',' || c = '"' || c = '\n' || c = '\r'

def fieldText (field : String) : List Char :=
  if needsQuotes field.toList then
    '"' :: (field.toList.flatMap (fun c => if c = '"' then ['"', '"'] else [c]) ++ ['"'])
  else field.toList

/-- The text of a record with its line end. -/
def recordText (record : List String) : List Char :=
  [','].intercalate (record.map fieldText) ++ ['\n']

end Csv

namespace Table

/-- The table whose header is the first record. -/
def ofRecords? : List (List String) → Except CsvError Table
  | [] => .error .missingHeader
  | headers :: records => do
    let rows ← Csv.fitRows headers.length 1 records
    return ⟨headers, rows⟩

def ofCsv? (text : String) : Except CsvError Table := do
  let records ← Csv.records text.toList
  ofRecords? records

/-- A table that is read has rows as wide as its header. -/
theorem ofCsv?_rectangular {text : String} {t : Table} (result : ofCsv? text = .ok t) :
    t.Rectangular := by
  unfold ofCsv? at result
  cases read : Csv.records text.toList with
  | error e =>
    rw [read] at result
    cases result
  | ok records =>
    rw [read] at result
    cases records with
    | nil => cases result
    | cons headers records =>
      simp only [bind, Except.bind, ofRecords?] at result
      cases fitted : Csv.fitRows headers.length 1 records with
      | error e =>
        rw [fitted] at result
        cases result
      | ok rows =>
        rw [fitted] at result
        cases result
        exact Csv.length_of_mem_fitRows fitted

def toCsv (t : Table) : String :=
  String.ofList ((t.headers :: t.rows).flatMap Csv.recordText)

end Table

end BenchStats
