import BenchStats.Binary64.Arithmetic
import BenchStats.Decimal.Layout
import BenchStats.Decimal.Literal
import BenchStats.Text.Blank

/-!
# Numbers

A numeric token is an exact integer when it fits in 64 bits and a floating-point number otherwise.
Byte counts stay exact this way, and decimal points, exponents and the names of infinities and of
not-a-number are still accepted. Cells that stand for a missing value are told apart by a fixed
list of spellings.
-/

namespace BenchStats

/-- A numeric token: an integer of 64 bits, or a floating-point number. -/
inductive Number where
  | int (value : Int64)
  | float (value : Binary64)
  deriving DecidableEq

namespace Number

/-- The integer of 64 bits with a value, if it fits. -/
def fitInt? (value : Int) : Option Int64 :=
  if Int64.minValue.toInt ≤ value ∧ value ≤ Int64.maxValue.toInt then some (Int64.ofInt value)
  else none

/-- An integer literal with digits of ASCII and an optional sign, if it fits in 64 bits. -/
def readInt? (text : List Char) : Option Int64 :=
  let (negative, digits) := Decimal.takeSign text
  if digits.isEmpty || !digits.all Char.isDigit then none
  else
    let magnitude : Int := Nat.ofDigitChars 10 digits 0
    fitInt? (if negative then -magnitude else magnitude)

/-- The number that a token without blanks around it denotes; integers come first. -/
def ofToken? (token : List Char) : Option Number :=
  match readInt? token with
  | some value => some (.int value)
  | none => (Binary64.read? token).map .float

/-- The number in a text, without regard to blanks around it. -/
def read? (text : String) : Option Number := ofToken? (Text.trim text.toList)

/-- The value as a floating-point number; integers beyond 53 bits are rounded. -/
def toBinary64 : Number → Binary64
  | .int value => .ofInt value.toInt
  | .float value => value

def isInt : Number → Bool
  | .int _ => true
  | .float _ => false

def intText (value : Int) : String :=
  String.ofList ((if value < 0 then ['-'] else []) ++ Nat.toDigits 10 value.natAbs)

/-- A floating-point number as the text of a cell; not-a-number leaves the cell empty. -/
def floatText (value : Binary64) : String := Decimal.cellLayout.cellText value

def text : Number → String
  | .int value => intText value.toInt
  | .float value => floatText value

/-- The spellings that stand for a missing value, besides a blank cell. -/
def missingSpellings : List String :=
  ["#N/A", "#N/A N/A", "#NA", "-1.#IND", "-1.#QNAN", "-NaN", "-nan", "1.#IND", "1.#QNAN", "<NA>",
    "N/A", "NA", "NULL", "NaN", "None", "n/a", "nan", "null"]

/-- Whether a cell holds no value: it is blank, or one of the spellings of a missing value. -/
def isMissing (cell : String) : Bool :=
  let token := Text.trim cell.toList
  token.isEmpty || missingSpellings.any (·.toList = token)

end Number

end BenchStats
