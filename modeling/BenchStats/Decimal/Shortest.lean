import BenchStats.Decimal.Basic

/-!
# Shortest decimals

The decimal with the fewest digits that reads back as a given magnitude, and of those with as many
digits the nearest. On the grid of decimals with a given number of digits only the two neighbours
of the magnitude matter: if any point of the grid reads back, one of them does.
-/

namespace BenchStats.Decimal

/-- Which neighbour is taken where two of them are equally near. -/
inductive Tie where
  | upward
  | evenDigit
  deriving DecidableEq

def readsBackAs (x : Magnitude) (d : Decimal) : Bool :=
  Magnitude.nearest? d.value = some x

/-- The nearer of two neighbours `lower` and `lower + 1`, counted in units of `10 ^ exponent`. -/
def nearerNeighbour (tie : Tie) (q : Rat) (lower : Decimal) : Decimal :=
  let upper : Decimal := ⟨lower.digits + 1, lower.exponent⟩
  let below := q - lower.value
  let above := upper.value - q
  if below < above then lower
  else if above < below then upper
  else match tie with
    | .upward => upper
    | .evenDigit => if lower.digits % 2 = 0 then lower else upper

/-- A decimal with at most `count` digits (or a power of ten) that reads back, if there is one. -/
def withDigits? (tie : Tie) (x : Magnitude) (count : Nat) : Option Decimal :=
  let unit := decimalOrder x.value - (count - 1 : Nat)
  let lower : Decimal := ⟨(x.value / (10 : Rat) ^ unit).floor.toNat, unit⟩
  let upper : Decimal := ⟨lower.digits + 1, unit⟩
  match readsBackAs x lower, readsBackAs x upper with
  | true, true => some (nearerNeighbour tie x.value lower)
  | true, false => some lower
  | false, true => some upper
  | false, false => none

/-- The shortest decimal that reads back as the magnitude. Seventeen digits tell all magnitudes
apart, so the exact value at the end only makes the definition complete. -/
def shortest (tie : Tie) (x : Magnitude) : Decimal :=
  if x = .zero then ⟨0, 0⟩
  else ((List.range' 1 17).findSome? (withDigits? tie x)).getD x.exactDecimal

end BenchStats.Decimal
