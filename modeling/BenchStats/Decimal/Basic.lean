import BenchStats.Binary64.Rounding

/-!
# Decimals

A decimal is a whole number of digits with a power of ten. Reading one as a binary floating-point
number rounds its exact value once.
-/

namespace BenchStats

/-- The non-negative value `digits * 10 ^ exponent`. -/
structure Decimal where
  digits : Nat
  exponent : Int
  deriving DecidableEq

namespace Decimal

def value (d : Decimal) : Rat := (d.digits : Rat) * (10 : Rat) ^ d.exponent

/-- The integer `k` with `10 ^ k ≤ q < 10 ^ (k + 1)`, for a positive `q`. -/
def decimalOrder (q : Rat) : Int :=
  let k : Int := ((Nat.toDigits 10 q.num.natAbs).length : Int) - (Nat.toDigits 10 q.den).length
  if (10 : Rat) ^ k ≤ q then k else k - 1

end Decimal

/-- The decimal with exactly the value of a magnitude; half a unit is five tenths of one. -/
def Magnitude.exactDecimal (x : Magnitude) : Decimal :=
  if 0 ≤ x.exponent then ⟨x.significand <<< x.exponent.toNat, 0⟩
  else ⟨x.significand * Nat.pow 5 (-x.exponent).toNat, x.exponent⟩

/-- The number nearest to a decimal with a sign. -/
def Binary64.ofDecimal (negative : Bool) (d : Decimal) : Binary64 :=
  Binary64.ofRat negative (if negative then -d.value else d.value)

end BenchStats
