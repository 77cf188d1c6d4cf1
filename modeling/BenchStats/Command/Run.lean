import BenchStats.Command.Arguments
import BenchStats.Command.Config
import BenchStats.Files.Documents
import BenchStats.Report.Columns
import BenchStats.Report.Groups
import BenchStats.Report.Profiles
import BenchStats.Report.Total
import BenchStats.Table.Aligned

/-!
# Commands

What a command line does on a host: the configuration is read before anything else, then the
inputs; the report is made, and its output is written last. An error ends the command where it
arises and carries what was being done. A text that cannot be printed is no error that is reported:
the program is aborted there.
-/

namespace BenchStats

inductive CommandError where
  | readingConfig (path : String) (cause : FileError)
  | notConfig (path : String)
  | input (cause : DocumentError)
  /-- The named content cannot be written to a path. -/
  | output (content path : String) (cause : DocumentError)
  | comparing (first second : String) (cause : ReportError)
  | grouping (input key : String) (cause : ReportError)
  | histogram (cause : ReportError)
  deriving DecidableEq

namespace CommandError

/-- What was being done, from the outside inwards, then the cause. -/
def chain : CommandError → List String
  | .readingConfig path cause => [s!"read config {path}", cause.message]
  | .notConfig path => [s!"parse config {path}", "not a configuration"]
  | .input cause => cause.chain
  | .output content path cause => s!"writing {content} to {path}" :: cause.chain
  | .comparing first second cause => [s!"comparing {first} with {second}", cause.message]
  | .grouping source key cause => [s!"grouping {source} by '{key}'", cause.message]
  | .histogram cause => ["building histogram", cause.message]

/-- A message whose lines after the first are indented. -/
def indented (lead indent message : String) : String :=
  lead ++ String.ofList (message.toList.flatMap fun c =>
    if c = '\n' then '\n' :: indent.toList else [c])

/-- The causes of an error, one of them indented, several of them numbered. -/
def causeLines : List String → List String
  | [cause] => [indented "    " "    " cause]
  | causes => causes.mapIdx fun i cause => indented s!"    {i}: " "       " cause

def report (e : CommandError) : String :=
  match e.chain with
  | [] => "Error: "
  | [message] => s!"Error: {message}"
  | message :: causes =>
    s!"Error: {message}\n\nCaused by:\n" ++ "\n".intercalate (causeLines causes)

end CommandError

/-- Why a command ends before it is done. -/
inductive Stop where
  | error (cause : CommandError)
  /-- A text cannot be printed. -/
  | printing (cause : FileError)
  deriving DecidableEq

namespace Command

variable {m : Type → Type} [Monad m] [Host m]

def print (text : String) : ExceptT Stop m Unit := (ExceptT.mk (Host.print text)).adapt .printing

def printLine (text : String) : ExceptT Stop m Unit := print (text ++ "\n")

def input {α : Type} (read : ExceptT DocumentError m α) : ExceptT Stop m α :=
  read.adapt fun e => .error (.input e)

def output (content path : String) (t : Table) : ExceptT Stop m Unit :=
  (Document.writeTable path t).adapt fun e => .error (.output content path e)

def make (onError : ReportError → CommandError) (report : Except ReportError Table) :
    ExceptT Stop m Table :=
  ExceptT.mk (pure (report.mapError fun e => .error (onError e)))

/-- The configuration in a file, or the default one if no path is given. -/
def loadConfig : Option String → ExceptT Stop m Config
  | none => return {}
  | some path => do
    let text ← (Document.readText path).adapt fun e => .error (.readingConfig path e)
    match Config.ofToml? text with
    | some config => return config
    | none => throw (.error (.notConfig path))

def heapReport (source target : String) : ExceptT Stop m Unit := do
  let report ← input (Document.readHeapReport source)
  output "snapshots" target report.toTable
  printLine s!"Parsed data saved to {target}"

def columns (first second target : String) : ExceptT Stop m Unit := do
  printLine s!"Processing {first}..."
  let a ← input (Document.readTable first)
  printLine s!"Processing {second}..."
  let b ← input (Document.readTable second)
  output "statistics" target (Report.columns a b)
  printLine s!"Statistics saved to {target}"

def total (first second target column : String) : ExceptT Stop m Unit := do
  let a ← input (Document.readTable first)
  let b ← input (Document.readTable second)
  let report ← make (.comparing first second) (Report.total a b column)
  output "comparison" target report
  printLine s!"Statistics and comparison saved to {target}"

def histogram (t : Table) (key value : String) (bins : Nat) (target : String) :
    ExceptT Stop m Unit := do
  let report ← make .histogram do
    Report.histogram (← ReportError.ofColumn (t.groupBy key value)) bins
  output "histogram" target report
  printLine s!"\nHistogram ({bins} bins) saved to {target}"

/-- Prints and writes the statistics of groups; their histograms are written first. -/
def groups (source target key value : String) (histogramTarget : Option String) (bins : Nat) :
    ExceptT Stop m Unit := do
  let t ← input (Document.readTable source)
  let report ← make (.grouping source key) (Report.groups t key value)
  printLine "Statistical Summary:"
  print report.aligned
  match histogramTarget with
  | some path => histogram t key value bins path
  | none => pure ()
  output "statistics" target report
  printLine s!"\nStatistical data saved to {target}"

def profiles (old new target : String) (names : ProfileColumns) (oldLabel newLabel : String) :
    ExceptT Stop m Unit := do
  let a ← input (Document.readTable old)
  let b ← input (Document.readTable new)
  let report ← make (.comparing old new) (Report.profiles a b names oldLabel newLabel)
  output "profile comparison" target report
  printLine s!"Statistical results saved to {target}"

/-- Does a task with the given settings; an option of the task wins over them. -/
def perform (config : Config) : Task → ExceptT Stop m Unit
  | .heapReport source target => heapReport source target
  | .columns first second target => columns first second target
  | .total first second target column =>
    total first second target (column.getD config.totalColumn)
  | .groups source target key value histogramTarget bins =>
    groups source target (key.getD config.groupColumn) (value.getD config.profileColumns.duration)
      histogramTarget (bins.getD config.bins)
  | .profiles old new target oldLabel newLabel duration visited =>
    profiles old new target
      { duration := duration.getD config.profileColumns.duration
        visited := visited.getD config.profileColumns.visited }
      (oldLabel.getD config.oldLabel) (newLabel.getD config.newLabel)

inductive Outcome where
  | done
  | stopped (stop : Stop)
  | misused (cause : UsageError)
  deriving DecidableEq

namespace Outcome

/-- The exit code; an aborted program is ended by the signal with the number 6. -/
def code : Outcome → Nat
  | .done => 0
  | .stopped (.error _) => 1
  | .stopped (.printing _) => 128 + 6
  | .misused _ => 2

def report : Outcome → String
  | .done => ""
  | .stopped (.error cause) => cause.report
  | .stopped (.printing cause) => s!"failed printing to stdout: {cause.message}"
  | .misused cause => s!"error: {cause.message}"

@[simp] theorem code_stopped_ne_zero (stop : Stop) : (stopped stop).code ≠ 0 := by
  cases stop with
  | error cause => exact Nat.one_ne_zero
  | printing cause => exact Nat.succ_ne_zero _

end Outcome

def usage : String :=
  "Usage: mstat [--config <PATH>] [-v] <COMMAND>\n\n" ++
  "Commands:\n" ++
  "  massif <INPUT> <OUTPUT>\n" ++
  "  stats <INPUT1> <INPUT2> <OUTPUT>\n" ++
  "  compare-total <INPUT1> <INPUT2> <OUTPUT> [--column <NAME>]\n" ++
  "  thread-stats [--input <PATH>] [--output <PATH>] [--group-column <NAME>]\n" ++
  "      [--value-column <NAME>] [--histogram <PATH>] [--bins <COUNT>]\n" ++
  "  compare-profiles <OLD> <NEW> <OUTPUT> [--old-label <TEXT>] [--new-label <TEXT>]\n" ++
  "      [--duration-column <NAME>] [--visited-column <NAME>]\n"

/-- Does what a command line says, given the path of the configuration in the environment. Whether
the usage or the version can be printed does not matter. -/
def execute (environment : Option String) (words : List String) : m Outcome := do
  match Arguments.read environment words with
  | .error e => return .misused e
  | .ok .help =>
    discard (Host.print usage)
    return .done
  | .ok .version =>
    discard (Host.print "mstat 0.1.0\n")
    return .done
  | .ok (.run path task) =>
    let performed : ExceptT Stop m Unit := do
      let config ← loadConfig path
      perform config task
    match ← performed.run with
    | .ok () => return .done
    | .error stop => return .stopped stop

end Command

end BenchStats
