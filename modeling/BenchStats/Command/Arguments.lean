import BenchStats.Number

/-!
# Command lines

The words of a command line are options, each with a value or none, the name of a task and the
arguments of the task. The task and its own options are read behind its name; the path of the
configuration can be given on either side of it.
-/

namespace BenchStats

/-- What a command line asks to be done. Where an option is not given, the configuration decides. -/
inductive Task where
  | heapReport (input output : String)
  | columns (first second output : String)
  | total (first second output : String) (column : Option String)
  | groups (input output : String) (key value histogram : Option String) (bins : Option Nat)
  | profiles (old new output : String) (oldLabel newLabel duration visited : Option String)
  deriving DecidableEq

inductive Request where
  | help
  | version
  | run (config : Option String) (task : Task)
  deriving DecidableEq

/-- Why a command line cannot be understood. -/
inductive UsageError where
  | unexpected (word : String)
  | valueMissing (option : String)
  | valueNotAllowed (option : String)
  | emptyValue (argument : String)
  | repeated (option : String)
  | taskMissing
  | argumentMissing
  /-- The number of bins is not a whole number from one to the greatest of 32 bits. -/
  | badCount (word : String)
  deriving DecidableEq

def UsageError.message : UsageError → String
  | .unexpected word => s!"unexpected argument '{word}'"
  | .valueMissing option => s!"a value is required for '--{option}'"
  | .valueNotAllowed option => s!"no value is allowed for '--{option}'"
  | .emptyValue argument => s!"the value of '{argument}' is empty"
  | .repeated option => s!"the option '--{option}' is given twice"
  | .taskMissing => "a command is required"
  | .argumentMissing => "an argument of the command is missing"
  | .badCount word => s!"'{word}' is not a number of bins"

namespace Arguments

/-- What the value of an option has to be. -/
inductive ValueKind where
  | text
  /-- A path, which is never empty. -/
  | path
  | count

/-- What may stand on one side of the name of a task. -/
structure Side where
  options : List (String × ValueKind)
  capacity : Nat
  /-- Whether the name of a task and the version are asked for on this side. -/
  beforeTask : Bool

structure Words where
  options : List (String × String) := []
  positional : List String := []

/-- How the words of one side end. -/
inductive Ending where
  | help
  | version
  | task (name : String) (rest : List String)
  | finished

/-- Whether a word is an option and no value; a single hyphen is a value. -/
def looksLikeOption (word : String) : Bool :=
  word.toList.head? = some '-' && word ≠ "-"

/-- A number of bins, from one to the greatest of 32 bits. -/
def count? (word : String) : Option Nat :=
  match Number.readInt? word.toList with
  | some value =>
    if 1 ≤ value.toInt ∧ value.toInt < UInt32.size then some value.toInt.toNat else none
  | none => none

/-- The words read with the value of one more option. -/
def Words.addOption (words : Words) (kind : ValueKind) (name value : String) :
    Except UsageError Words :=
  if (words.options.lookup name).isSome then .error (.repeated name)
  else match kind with
    | .text => .ok added
    | .path => if value.isEmpty then .error (.emptyValue name) else .ok added
    | .count => if (count? value).isNone then .error (.badCount value) else .ok added
where
  added : Words := { words with options := words.options ++ [(name, value)] }

/-- The words read with one more argument, which is always a path. -/
def Words.addPositional (side : Side) (words : Words) (word : String) : Except UsageError Words :=
  if side.capacity ≤ words.positional.length then .error (.unexpected word)
  else if word.isEmpty then .error (.emptyValue word)
  else .ok { words with positional := words.positional ++ [word] }

/-- A word of single-letter options; `none` if reading goes on behind it. -/
def readLetters (side : Side) (word : String) : List Char → Except UsageError (Option Ending)
  | [] => .ok none
  | letter :: rest =>
    if letter = 'v' then readLetters side word rest
    else if letter = 'h' then .ok (some .help)
    else if letter = 'V' && side.beforeTask then .ok (some .version)
    else .error (.unexpected word)

/-- The name of a long option, and the value behind an equals sign if there is one. -/
def splitOption (word : List Char) : String × Option String :=
  let name := String.ofList (word.takeWhile (· ≠ '='))
  match word.dropWhile (· ≠ '=') with
  | [] => (name, none)
  | _ :: value => (name, some (String.ofList value))

/-- An option without a value, by its name. -/
def readFlag (side : Side) (name : String) (value : Option String) :
    Except UsageError (Option Ending) :=
  if name = "verbose" || name = "help" || (name = "version" && side.beforeTask) then
    if value.isSome then .error (.valueNotAllowed name)
    else if name = "help" then .ok (some .help)
    else if name = "version" then .ok (some .version)
    else .ok none
  else .error (.unexpected name)

/-- The words of one side. Behind two hyphens alone there are only arguments. -/
def readSide (side : Side) (words : Words) : List String → Except UsageError (Words × Ending)
  | [] => .ok (words, .finished)
  | word :: rest =>
    match word.toList with
    | ['-', '-'] => do
      let words ← rest.foldlM (Words.addPositional side) words
      return (words, .finished)
    | '-' :: '-' :: body =>
      let (name, value) := splitOption body
      match side.options.lookup name with
      | some kind =>
        match value, rest with
        | some value, rest => do
          let words ← words.addOption kind name value
          readSide side words rest
        | none, [] => .error (.valueMissing name)
        | none, value :: rest =>
          if looksLikeOption value then .error (.valueMissing name)
          else do
            let words ← words.addOption kind name value
            readSide side words rest
      | none => do
        match ← readFlag side name value with
        | some ending => return (words, ending)
        | none => readSide side words rest
    | '-' :: letter :: letters => do
      match ← readLetters side word (letter :: letters) with
      | some ending => return (words, ending)
      | none => readSide side words rest
    | _ =>
      if side.beforeTask then .ok (words, .task word rest)
      else do
        let words ← words.addPositional side word
        readSide side words rest

def configOption : String × ValueKind := ("config", .path)

def firstSide : Side := ⟨[configOption], 0, true⟩

def taskSide? (name : String) : Option Side :=
  let side (options : List (String × ValueKind)) (capacity : Nat) : Side :=
    ⟨configOption :: options, capacity, false⟩
  if name = "massif" then some (side [] 2)
  else if name = "stats" then some (side [] 3)
  else if name = "compare-total" then some (side [("column", .text)] 3)
  else if name = "thread-stats" then
    some (side [("input", .path), ("output", .path), ("group-column", .text),
      ("value-column", .text), ("histogram", .path), ("bins", .count)] 0)
  else if name = "compare-profiles" then
    some (side [("old-label", .text), ("new-label", .text), ("duration-column", .text),
      ("visited-column", .text)] 3)
  else none

/-- The task of a name with the words behind it; there are no more of them than it takes. -/
def task (name : String) (words : Words) : Except UsageError Task :=
  let option (key : String) : Option String := words.options.lookup key
  match name, words.positional with
  | "massif", [input, output] => .ok (.heapReport input output)
  | "stats", [first, second, output] => .ok (.columns first second output)
  | "compare-total", [first, second, output] =>
    .ok (.total first second output (option "column"))
  | "thread-stats", [] =>
    .ok (.groups ((option "input").getD "results.csv")
      ((option "output").getD "thread_stats.csv") (option "group-column") (option "value-column")
      (option "histogram") ((option "bins").bind count?))
  | "compare-profiles", [old, new, output] =>
    .ok (.profiles old new output (option "old-label") (option "new-label")
      (option "duration-column") (option "visited-column"))
  | _, _ => .error .argumentMissing

/-- The path of the configuration: behind the task, before it, or from the environment. The value
in the environment is looked at on each side that does not give a path itself. -/
def configPath (before behind : Words) (environment : Option String) :
    Except UsageError (Option String) :=
  let first := before.options.lookup "config"
  let second := behind.options.lookup "config"
  if environment = some "" && (first.isNone || second.isNone) then .error (.emptyValue "config")
  else .ok (second <|> first <|> environment)

/-- What a command line says, given the path of the configuration in the environment. -/
def read (environment : Option String) (words : List String) : Except UsageError Request := do
  let (before, ending) ← readSide firstSide {} words
  match ending with
  | .help => return .help
  | .version => return .version
  | .finished => .error .taskMissing
  | .task name rest =>
    match taskSide? name with
    | none => .error (.unexpected name)
    | some side =>
      let (behind, ending) ← readSide side {} rest
      match ending with
      | .finished =>
        let task ← task name behind
        let config ← configPath before behind environment
        return .run config task
      | .version => return .version
      | _ => return .help

end Arguments

end BenchStats
