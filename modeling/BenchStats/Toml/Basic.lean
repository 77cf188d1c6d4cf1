import BenchStats.Binary64.Basic
import BenchStats.Members

/-!
# TOML documents

The values of a TOML document and the rules by which its lines build up tables. Every table knows
how it came about, because that settles whether a later line may still add to it: a header opens a
table once, dotted keys go on with tables that dotted keys have begun, and a table between braces
is complete.
-/

namespace BenchStats

/-- How a table came about. -/
inductive TomlOrigin where
  | implicit
  | header
  | dotted
  | inline
  deriving DecidableEq

/-- A TOML value. A point in time is kept as it is written. -/
inductive Toml where
  | string (text : String)
  | integer (value : Int64)
  | float (value : Binary64)
  | boolean (value : Bool)
  | moment (text : String)
  | array (elements : List Toml)
  | table (origin : TomlOrigin) (members : List (String × Toml))
  /-- An array whose elements come under headers in double brackets. -/
  | tables (elements : List (List (String × Toml)))

namespace Toml

open Members (set)

/-- A change to the table that the path of a header leads to. -/
def changeAt (change : Members Toml → Option (Members Toml)) :
    List String → Members Toml → Option (Members Toml)
  | [], members => change members
  | key :: path, members =>
    match members.lookup key with
    | none => (changeAt change path []).map fun inner => set key (.table .implicit inner) members
    | some (.table .inline _) => none
    | some (.table origin inner) =>
      (changeAt change path inner).map fun inner => set key (.table origin inner) members
    | some (.tables elements) => do
      let last ← elements.getLast?
      let inner ← changeAt change path last
      return set key (.tables (elements.dropLast ++ [inner])) members
    | some _ => none

/-- Opens the table of a header; only a table that no line has filled yet can be opened. -/
def openTable (key : String) (members : Members Toml) : Option (Members Toml) :=
  match members.lookup key with
  | none => some (set key (.table .header []) members)
  | some (.table .implicit inner) => some (set key (.table .header inner) members)
  | some _ => none

/-- Opens one more element of the array of a header in double brackets. -/
def openElement (key : String) (members : Members Toml) : Option (Members Toml) :=
  match members.lookup key with
  | none => some (set key (.tables [[]]) members)
  | some (.tables elements) => some (set key (.tables (elements ++ [[]])) members)
  | some _ => none

/-- Adds the value of a key behind the steps of a dotted key; no key is set twice. -/
def assign (key : String) (value : Toml) : List String → Members Toml → Option (Members Toml)
  | [], members => if (members.lookup key).isSome then none else some (set key value members)
  | step :: path, members =>
    match members.lookup step with
    | none => (assign key value path []).map fun inner => set step (.table .dotted inner) members
    | some (.table origin inner) =>
      if origin = .dotted || (origin = .implicit && !path.isEmpty) then
        (assign key value path inner).map fun inner => set step (.table origin inner) members
      else none
    | some _ => none

/-- A line of a document; a path ends in a last key. -/
inductive Line where
  | header (path : List String) (key : String)
  | element (path : List String) (key : String)
  | assignment (path : List String) (key : String) (value : Toml)

/-- The members of the document with a line added, and the path of the table that is open. -/
def addLine (document : List String × Members Toml) : Line → Option (List String × Members Toml)
  | .header path key => do
    let members ← changeAt (openTable key) path document.2
    return (path ++ [key], members)
  | .element path key => do
    let members ← changeAt (openElement key) path document.2
    return (path ++ [key], members)
  | .assignment path key value => do
    let members ← changeAt (assign key value path) document.1 document.2
    return (document.1, members)

/-- The members of the document with the given lines. -/
def ofLines? (lines : List Line) : Option (Members Toml) :=
  (lines.foldlM addLine ([], [])).map Prod.snd

end Toml

end BenchStats
