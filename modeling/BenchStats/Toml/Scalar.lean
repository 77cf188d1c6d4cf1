import BenchStats.Number
import BenchStats.Toml.Basic

/-!
# TOML scalars

Integers, floating-point numbers, truth values and points in time, each written as one word.
-/

namespace BenchStats.Toml

/-- The digits of a group without the underscores, which only stand between two of them. -/
def groupedDigits? (isDigit : Char → Bool) (text : List Char) : Option (List Char) :=
  let groups := text.splitOn '_'
  if groups.all fun group => !group.isEmpty && group.all isDigit then some groups.flatten else none

/-- Digits without a zero at the start, or a zero alone. -/
def decimalDigits? (text : List Char) : Option (List Char) := do
  let digits ← groupedDigits? Char.isDigit text
  if 1 < digits.length && digits.head? = some '0' then none else some digits

/-- The value of a digit in any base up to sixteen. -/
def digitValue (c : Char) : Nat :=
  if c.isDigit then c.toNat - '0'.toNat else c.toLower.toNat - 'a'.toNat + 10

/-- An integer in base two, eight or sixteen, without its mark of the base. -/
def basedInteger? (base : Nat) (text : List Char) : Option Int :=
  (groupedDigits? (fun c => c.isAlphanum && digitValue c < base) text).map fun digits =>
    (digits.foldl (fun n c => base * n + digitValue c) 0 : Nat)

def integer? (text : List Char) : Option Int64 := do
  let value ← match text with
    | '0' :: 'x' :: digits => basedInteger? 16 digits
    | '0' :: 'o' :: digits => basedInteger? 8 digits
    | '0' :: 'b' :: digits => basedInteger? 2 digits
    | _ =>
      let (negative, digits) := Decimal.takeSign text
      (decimalDigits? digits).map fun digits =>
        let n : Int := Nat.ofDigitChars 10 digits 0
        if negative then -n else n
  Number.fitInt? value

/-- A floating-point number: digits with a fraction, an exponent or both, or one of the names of
the values that are not finite. Digits beyond the greatest number are refused, but below the least
they denote the negative infinity. -/
def float? (text : List Char) : Option Binary64 := do
  let (negative, body) := Decimal.takeSign text
  if body = "inf".toList then some (.infinite negative)
  else if body = "nan".toList then some .nan
  else
    let isMark (c : Char) := c = 'e' || c = 'E'
    let mantissa := body.takeWhile (!isMark ·)
    let exponent := body.dropWhile (!isMark ·)
    let whole ← decimalDigits? (mantissa.takeWhile (· ≠ '.'))
    let fraction ← match mantissa.dropWhile (· ≠ '.') with
      | [] => some []
      | _ :: digits => groupedDigits? Char.isDigit digits
    let (down, power) := Decimal.takeSign (exponent.drop 1)
    let power ← if exponent.isEmpty then some [] else groupedDigits? Char.isDigit power
    if fraction.isEmpty && power.isEmpty then none
    else
      let shift : Int := Decimal.exponentValue power
      let digits := Nat.ofDigitChars 10 (whole ++ fraction) 0
      let value := Binary64.ofDecimal negative
        ⟨digits, (if down then -shift else shift) - fraction.length⟩
      if value = .infinite false then none else some value

/-! ### Points in time -/

/-- Two digits with a value in a range, and what follows them. -/
def twoDigits? (least greatest : Nat) : List Char → Option (Nat × List Char)
  | a :: b :: rest =>
    let n := Nat.ofDigitChars 10 [a, b] 0
    if a.isDigit && b.isDigit && least ≤ n && n ≤ greatest then some (n, rest) else none
  | _ => none

/-- What follows a character at the start. -/
def behind? (c : Char) : List Char → Option (List Char)
  | d :: rest => if d = c then some rest else none
  | [] => none

def daysIn (year month : Nat) : Nat :=
  if month = 2 then
    (if year % 4 = 0 && (year % 100 ≠ 0 || year % 400 = 0) then 29 else 28)
  else if month = 4 || month = 6 || month = 9 || month = 11 then 30
  else 31

def afterDate? (text : List Char) : Option (List Char) := do
  let (century, rest) ← twoDigits? 0 99 text
  let (year, rest) ← twoDigits? 0 99 rest
  let rest ← behind? '-' rest
  let (month, rest) ← twoDigits? 1 12 rest
  let rest ← behind? '-' rest
  let (_, rest) ← twoDigits? 1 (daysIn (100 * century + year) month) rest
  return rest

/-- What follows a time of day; a second may be a leap second. -/
def afterTime? (text : List Char) : Option (List Char) := do
  let (_, rest) ← twoDigits? 0 23 text
  let rest ← behind? ':' rest
  let (_, rest) ← twoDigits? 0 59 rest
  let rest ← behind? ':' rest
  let (_, rest) ← twoDigits? 0 60 rest
  match rest with
  | '.' :: fraction =>
    if (fraction.head?).any Char.isDigit then some (fraction.dropWhile Char.isDigit) else none
  | rest => some rest

/-- Whether a text is an offset from universal time, or none. -/
def isOffset : List Char → Bool
  | [] => true
  | ['Z'] => true
  | ['z'] => true
  | sign :: rest =>
    (sign = '+' || sign = '-') &&
      (do let (_, rest) ← twoDigits? 0 23 rest
          let rest ← behind? ':' rest
          let (_, rest) ← twoDigits? 0 59 rest
          return rest) = some []

/-- Whether a text is a date, a time of day, or both with or without an offset. -/
def isMoment (text : List Char) : Bool :=
  match afterDate? text with
  | some [] => true
  | some (separator :: rest) =>
    (separator = 'T' || separator = 't' || separator = ' ') && (afterTime? rest).any isOffset
  | none => afterTime? text = some []

def scalar? (word : List Char) : Option Toml :=
  if word = "true".toList then some (.boolean true)
  else if word = "false".toList then some (.boolean false)
  else match integer? word with
    | some value => some (.integer value)
    | none => match float? word with
      | some value => some (.float value)
      | none => if isMoment word then some (.moment (String.ofList word)) else none

def isWordChar (c : Char) : Bool :=
  c.isAlphanum || c = '_' || c = '+' || c = '-' || c = '.' || c = ':'

/-- A word at the start of a text, and what follows it. A space may stand between a date and a
time. -/
def readWord (text : List Char) : List Char × List Char :=
  let word := text.takeWhile isWordChar
  match text.dropWhile isWordChar with
  | ' ' :: rest =>
    if afterDate? word = some [] && (rest.head?).any Char.isDigit then
      (word ++ ' ' :: rest.takeWhile isWordChar, rest.dropWhile isWordChar)
    else (word, ' ' :: rest)
  | rest => (word, rest)

def readScalar (text : List Char) : Option (Toml × List Char) :=
  let (word, rest) := readWord text
  (scalar? word).map (·, rest)

end BenchStats.Toml
