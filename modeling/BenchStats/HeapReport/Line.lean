import BenchStats.HeapReport.Snapshot
import BenchStats.Text.DecimalDigit
import BenchStats.Text.Quoted

/-!
# Lines of a heap report

A line is taken for a snapshot when its first character that is not blank is a digit; nothing else
about it matters for that. Such a line has to consist of six numbers. Commas in it only group
digits, so they are deleted before it is split into words.
-/

namespace BenchStats.HeapReport

/-- Why a line that looks like a snapshot is none; lines count from one. -/
inductive LineError where
  | wordCount (lineNumber : Nat) (line : String) (count : Nat)
  | nonNumeric (lineNumber : Nat) (line : String) (column : String) (word : String)
  deriving DecidableEq

def LineError.lineNumber : LineError → Nat
  | .wordCount lineNumber _ _ => lineNumber
  | .nonNumeric lineNumber _ _ _ => lineNumber

def LineError.message : LineError → String
  | .wordCount lineNumber line count =>
    s!"line {lineNumber}: expected 6 fields, found {count}: {Text.quoted line}"
  | .nonNumeric lineNumber line column word =>
    s!"line {lineNumber}: field '{column}' has non-numeric value {Text.quoted word}: " ++
      Text.quoted line

/-- Whether a line looks like a snapshot. -/
def isCandidate (line : List Char) : Bool :=
  ((line.dropWhile Text.isBlank).head?).any Text.isDecimalDigit

/-- A line without commas and without blanks at its ends, with one space between words. -/
def normalize (line : List Char) : List Char :=
  Text.collapse (Text.trim (line.filter (· ≠ ',')))

/-- The words of a line; a line without any characters left has one empty word. -/
def words (line : List Char) : List (List Char) := (normalize line).splitOn ' '

def readWord (lineNumber : Nat) (line : List Char) (column : String) (word : List Char) :
    Except LineError Number :=
  match Number.ofToken? word with
  | some number => .ok number
  | none => .error (.nonNumeric lineNumber (String.ofList line) column (String.ofList word))

def readLine (lineNumber : Nat) (line : List Char) : Except LineError Snapshot :=
  match words line with
  | [index, time, total, useful, extra, stack] => do
    let read := readWord lineNumber line
    let index ← read "n" index
    let time ← read "time(i)" time
    let totalBytes ← read "total(B)" total
    let usefulHeapBytes ← read "useful-heap(B)" useful
    let extraHeapBytes ← read "extra-heap(B)" extra
    let stackBytes ← read "stacks(B)" stack
    return { index, time, totalBytes, usefulHeapBytes, extraHeapBytes, stackBytes }
  | others => .error (.wordCount lineNumber (String.ofList line) others.length)

/-- The snapshots on consecutive lines, the first of which has the given number. Lines that do not
look like snapshots are passed over, and the first defect ends the reading. -/
def readLines : Nat → List (List Char) → Except LineError (List Snapshot)
  | _, [] => .ok []
  | lineNumber, line :: rest =>
    if isCandidate line then do
      let snapshot ← readLine lineNumber line
      let snapshots ← readLines (lineNumber + 1) rest
      return snapshot :: snapshots
    else readLines (lineNumber + 1) rest

end BenchStats.HeapReport
