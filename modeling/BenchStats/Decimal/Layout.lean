import BenchStats.Decimal.Shortest

/-!
# Written floating-point numbers

The text of a floating-point number: its shortest digits, laid out with a decimal point or with an
exponent. What differs between the texts of a cell, a heap table and a JSON document is one record.
-/

namespace BenchStats.Decimal

/-- How the digits of a number are laid out. -/
structure Layout where
  /-- The least power of ten of the first digit that is written without an exponent. -/
  positionalFrom : Option Int
  /-- The greatest power of ten of the first digit that is written without an exponent. -/
  positionalTo : Option Int
  /-- Whether a whole number is written with `.0`. -/
  keepsPoint : Bool
  /-- Whether a positive exponent is written with its sign. -/
  signsExponent : Bool
  /-- Which of two equally near shortest decimals is written. -/
  tie : Tie

/-- Numbers in table cells: never an exponent, no point after a whole number. -/
def cellLayout : Layout := ⟨none, none, false, false, .upward⟩

/-- Numbers in the float columns of a heap table: a point or an exponent is always there. -/
def heapLayout : Layout := ⟨some (-4), some 15, true, false, .upward⟩

def jsonLayout : Layout := ⟨some (-5), some 15, true, true, .evenDigit⟩

/-- The digits of a whole number without the zeros at its end; zero keeps one digit. -/
def leadingDigits (n : Nat) : List Char :=
  if n = 0 then ['0'] else ((Nat.toDigits 10 n).reverse.dropWhile (· = '0')).reverse

/-- The power of ten of the first digit. -/
def leadingExponent (d : Decimal) : Int :=
  if d.digits = 0 then 0 else d.exponent + ((Nat.toDigits 10 d.digits).length : Int) - 1

/-- Digits with the decimal point after the first `point` of them, filled up with zeros. -/
def positionalText (keepsPoint : Bool) (digits : List Char) (point : Int) : List Char :=
  if point ≤ 0 then '0' :: '.' :: (List.replicate (-point).toNat '0' ++ digits)
  else if (digits.length : Int) ≤ point then
    digits ++ List.replicate (point.toNat - digits.length) '0' ++
      (if keepsPoint then ['.', '0'] else [])
  else digits.take point.toNat ++ '.' :: digits.drop point.toNat

/-- Digits with the decimal point after the first, and an exponent. -/
def scientificText (signsExponent : Bool) (digits : List Char) (exponent : Int) : List Char :=
  digits.take 1 ++ (if digits.length ≤ 1 then [] else '.' :: digits.drop 1) ++
    'e' :: ((if exponent < 0 then ['-'] else if signsExponent then ['+'] else []) ++
      Nat.toDigits 10 exponent.natAbs)

/-- Whether the first digit stands for a power of ten that is written without an exponent. -/
def Layout.isPositional (layout : Layout) (exponent : Int) : Bool :=
  layout.positionalFrom.all (· ≤ exponent) && layout.positionalTo.all (exponent ≤ ·)

def Layout.text (layout : Layout) (d : Decimal) : List Char :=
  let digits := leadingDigits d.digits
  let exponent := leadingExponent d
  if layout.isPositional exponent then positionalText layout.keepsPoint digits (exponent + 1)
  else scientificText layout.signsExponent digits exponent

def Layout.finiteText (layout : Layout) (negative : Bool) (x : Magnitude) : List Char :=
  (if negative then ['-'] else []) ++ layout.text (shortest layout.tie x)

/-- The text of a number in a cell: nothing for not-a-number, `inf` for infinities. -/
def Layout.cellText (layout : Layout) : Binary64 → String
  | .nan => ""
  | .infinite negative => if negative then "-inf" else "inf"
  | .finite negative x => String.ofList (layout.finiteText negative x)

end BenchStats.Decimal
