import BenchStats.Decimal.Basic

/-!
# Number literals

The texts that denote floating-point numbers: an optional sign, then digits with an optional point
and an optional exponent, or one of the names of the values that are not finite, in any letter case.
-/

namespace BenchStats

namespace Decimal

/-- A sign at the start of a literal, and what follows it. -/
def takeSign : List Char → Bool × List Char
  | '-' :: rest => (true, rest)
  | '+' :: rest => (false, rest)
  | text => (false, text)

/-- The value of the digits of an exponent. From `65536` on further digits are ignored: the
exponent is out of every range that is told apart. -/
def exponentValue (digits : List Char) : Nat :=
  digits.foldl (fun n c => if n < 65536 then 10 * n + (c.toNat - '0'.toNat) else n) 0

/-- The exponent at the end of a literal: nothing, or an `e`, a sign and at least one digit. -/
def exponent? : List Char → Option Int
  | [] => some 0
  | c :: rest =>
    if c = 'e' || c = 'E' then
      let (negative, digits) := takeSign rest
      if digits.isEmpty || !digits.all Char.isDigit then none
      else some (if negative then -(exponentValue digits : Int) else exponentValue digits)
    else none

/-- The fraction of a literal, if a point starts one, and what follows it. -/
def takeFraction : List Char → List Char × List Char
  | '.' :: rest => (rest.takeWhile Char.isDigit, rest.dropWhile Char.isDigit)
  | text => ([], text)

/-- A decimal literal without a sign. There is a digit before or after the point. -/
def literal? (text : List Char) : Option Decimal := do
  let whole := text.takeWhile Char.isDigit
  let (fraction, rest) := takeFraction (text.dropWhile Char.isDigit)
  if whole.isEmpty && fraction.isEmpty then none
  else
    let exponent ← exponent? rest
    some ⟨Nat.ofDigitChars 10 (whole ++ fraction) 0, exponent - fraction.length⟩

end Decimal

namespace Binary64

/-- The names of the values that are not finite, without regard to letter case. -/
def ofName? (negative : Bool) (text : List Char) : Option Binary64 :=
  let name := text.map Char.toLower
  if name = "nan".toList then some .nan
  else if name = "inf".toList || name = "infinity".toList then some (.infinite negative)
  else none

/-- The number that a literal denotes, correctly rounded. -/
def read? (text : List Char) : Option Binary64 :=
  let (negative, body) := Decimal.takeSign text
  match ofName? negative body with
  | some x => some x
  | none => (Decimal.literal? body).map (ofDecimal negative)

end Binary64

end BenchStats
