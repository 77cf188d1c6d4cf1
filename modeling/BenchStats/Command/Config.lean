import BenchStats.Report.Profiles
import BenchStats.Toml.Reader

/-!
# Configuration

The names of columns, the labels of profiles and the number of histogram bins that a command uses
where its command line does not say otherwise. A TOML document may set any of them; a key that is
not known is refused, so a misspelt one does not go unnoticed.
-/

namespace BenchStats

structure Config where
  totalColumn : String := "total(B)"
  groupColumn : String := "thread index"
  /-- The columns of a profile; the values of groups are durations, too. -/
  profileColumns : ProfileColumns := {}
  oldLabel : String := "specialized profile"
  newLabel : String := "generic profile"
  bins : Nat := 30
  deriving DecidableEq

namespace Config

/-- The values of a section, one for each of its names as far as they are set. A section is a table
without any other keys, or an array with the values in the order of the names. -/
def section? (names : List String) : Toml → Option (List (Option Toml))
  | .table _ members =>
    if members.all fun (key, _) => key ∈ names then
      some (names.map fun name => members.lookup name)
    else none
  | .array elements => some (names.mapIdx fun i _ => elements[i]?)
  | _ => none

/-- A text setting; the default stands if it is not set. -/
def text? (default : String) : Option Toml → Option String
  | none => some default
  | some (.string text) => some text
  | some _ => none

def count? (default : Nat) : Option Toml → Option Nat
  | none => some default
  | some (.integer value) => if 0 ≤ value.toInt then some value.toInt.toNat else none
  | some _ => none

def withColumns? (config : Config) (content : Toml) : Option Config := do
  match ← section? ["total", "duration", "group", "visited"] content with
  | [total, duration, group, visited] =>
    return { config with
      totalColumn := ← text? config.totalColumn total
      groupColumn := ← text? config.groupColumn group
      profileColumns :=
        { duration := ← text? config.profileColumns.duration duration
          visited := ← text? config.profileColumns.visited visited } }
  | _ => none

def withProfiles? (config : Config) (content : Toml) : Option Config := do
  match ← section? ["old_label", "new_label"] content with
  | [old, new] =>
    return { config with
      oldLabel := ← text? config.oldLabel old
      newLabel := ← text? config.newLabel new }
  | _ => none

def withHistogram? (config : Config) (content : Toml) : Option Config := do
  match ← section? ["bins"] content with
  | [bins] => return { config with bins := ← count? config.bins bins }
  | _ => none

def withSection? (config : Config) : String × Toml → Option Config
  | ("columns", content) => config.withColumns? content
  | ("profiles", content) => config.withProfiles? content
  | ("histogram", content) => config.withHistogram? content
  | _ => none

/-- The settings in a document; what it does not set has its default. -/
def ofToml? (text : String) : Option Config := do
  let members ← Toml.read? text
  members.foldlM withSection? {}

end Config

end BenchStats
