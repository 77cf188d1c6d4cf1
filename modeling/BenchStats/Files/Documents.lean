import BenchStats.Files.Host
import BenchStats.HeapReport.Basic
import BenchStats.Table.Csv
import BenchStats.Table.Records

/-!
# Documents in files

Reading heap reports and tables from files, and writing tables to files. A table is read as
comma-separated text; it is written as JSON if the path says so, and as comma-separated text
otherwise. The directory of a written file is made first; then the file is created, the text is
handed to it, and it is flushed. A refusal ends this where it arises and leaves the file as it is
then.
-/

namespace BenchStats

inductive TableFormat where
  | csv
  | json
  deriving DecidableEq

namespace TableFormat

/-- The form for a path: JSON if its extension is `json` in any case of the letters. -/
def ofPath (path : String) : TableFormat :=
  if (Path.extension? path).map (·.map Char.toLower) = some "json".toList then .json else .csv

end TableFormat

inductive DocumentError where
  | reading (path : String) (cause : FileError)
  | notTable (path : String) (cause : CsvError)
  | notHeapReport (path : String) (cause : HeapReport.LineError)
  | creatingParent (directory : String) (cause : FileError)
  | creating (path : String) (cause : FileError)
  | writingCsv (path : String) (cause : FileError)
  | flushingCsv (cause : FileError)
  | writingJson (cause : FileError)
  | endingJson (cause : FileError)
  | flushingJson (cause : FileError)
  deriving DecidableEq

/-- What was being done, then the cause; the line feed behind the JSON text goes unmentioned. -/
def DocumentError.chain : DocumentError → List String
  | .reading path cause => [s!"read {path}", cause.message]
  | .notTable path cause => [s!"parse CSV {path}", cause.message]
  | .notHeapReport path cause => [s!"parse massif report {path}", cause.message]
  | .creatingParent directory cause => [s!"creating parent directory {directory}", cause.message]
  | .creating path cause => [s!"create {path}", cause.message]
  | .writingCsv path cause => [s!"write CSV {path}", cause.message]
  | .flushingCsv cause => ["flush CSV writer", cause.message]
  | .writingJson cause => ["serialize JSON table", cause.message]
  | .endingJson cause => [cause.message]
  | .flushingJson cause => ["flush JSON writer", cause.message]

namespace Document

variable {m : Type → Type} [Monad m] [Host m]

def readText (path : String) : ExceptT FileError m String := do
  let content ← ExceptT.mk (Host.read path)
  match String.fromUTF8? content with
  | some text => return text
  | none => throw .notText

/-- A step that may be refused, and what a refusal of it means. -/
def attempt {α : Type} (meaning : FileError → DocumentError) (step : m (Except FileError α)) :
    ExceptT DocumentError m α :=
  (ExceptT.mk step).adapt meaning

def text (path : String) : ExceptT DocumentError m String := (readText path).adapt (.reading path)

def readTable (path : String) : ExceptT DocumentError m Table := do
  match Table.ofCsv? (← text path) with
  | .ok t => return t
  | .error e => throw (.notTable path e)

def readHeapReport (path : String) : ExceptT DocumentError m HeapReport := do
  match HeapReport.read? (← text path) with
  | .ok report => return report
  | .error e => throw (.notHeapReport path e)

/-- Makes the directory of a path, with all the directories above it. -/
def ensureParent (path : String) : ExceptT DocumentError m Unit := do
  match Path.parent? path with
  | none => return
  | some directory =>
    if directory.isEmpty then return
    attempt (.creatingParent directory) (Host.createDirectories directory)

def writeCsv (path : String) (t : Table) : ExceptT DocumentError m Unit := do
  ensureParent path
  let writer ← attempt (.creating path) (Host.create path)
  let writer ← attempt (.writingCsv path) (Host.write writer t.toCsv.toUTF8)
  attempt .flushingCsv (Host.flush writer)

def writeJson (path : String) (t : Table) : ExceptT DocumentError m Unit := do
  ensureParent path
  let writer ← attempt (.creating path) (Host.create path)
  let writer ← attempt .writingJson (Host.write writer t.toRecords.indented.toUTF8)
  let writer ← attempt .endingJson (Host.write writer "\n".toUTF8)
  attempt .flushingJson (Host.flush writer)

def writeTableAs : TableFormat → String → Table → ExceptT DocumentError m Unit
  | .csv => writeCsv
  | .json => writeJson

/-- Writes a table in the form that its path asks for. -/
def writeTable (path : String) : Table → ExceptT DocumentError m Unit :=
  writeTableAs (.ofPath path) path

end Document

end BenchStats
