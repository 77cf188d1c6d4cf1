import BenchStats.Members
import BenchStats.Number

/-!
# JSON documents

The values that are written as JSON. The members of an object keep the order in which their keys
first appeared; a key that comes again replaces the value and keeps its place.
-/

namespace BenchStats

/-- A JSON value; a floating-point number that is not finite is written as `null`. -/
inductive Json where
  | null
  | number (value : Number)
  | string (text : String)
  | array (elements : List Json)
  | object (members : List (String × Json))

namespace Json

/-- The object in which the given members are set one after the other. -/
def ofMembers (members : List (String × Json)) : Json :=
  .object (members.foldl (fun set (key, value) => Members.set key value set) [])

/-- A natural number as a JSON value; counts stay far below the bound of 64 bits. -/
def ofNat (n : Nat) : Json := .number (.int (Int64.ofNat n))

def ofBinary64 (x : Binary64) : Json := .number (.float x)

end Json

end BenchStats
