import BenchStats.Decimal.Basic
import BenchStats.Number

/-!
# JSON number literals

A JSON number keeps its digits as they are written until its value is asked for. A literal without
a fraction and an exponent is an integer when it fits in 64 bits. Any other one is read as its
first digits, as many as fit in 64 bits, scaled by a power of ten in floating-point arithmetic; a
value beyond the range of finite numbers is no number at all.
-/

namespace BenchStats

structure JsonNumber where
  negative : Bool
  whole : List Char
  /-- The digits after the point; there are none without a point. -/
  fraction : List Char
  exponent : Option Int
  deriving DecidableEq

namespace JsonNumber

/-- The digits that follow a number as long as the result fits in 64 bits, and the others. -/
def takeFitting (n : Nat) : List Char → Nat × List Char
  | [] => (n, [])
  | c :: rest =>
    let next := 10 * n + (c.toNat - '0'.toNat)
    if next < UInt64.size then takeFitting next rest else (n, c :: rest)

def powerOfTen (exponent : Nat) : Binary64 := .ofDecimal false ⟨1, exponent⟩

/-- A number scaled by a power of ten: one multiplication or division within the powers that are
finite numbers, and steps of the greatest of them below that. -/
def scaled (x : Binary64) (exponent : Int) : Option Binary64 :=
  if exponent.natAbs ≤ 308 then
    if 0 ≤ exponent then
      let product := x.mul (powerOfTen exponent.natAbs)
      if product.isFinite then some product else none
    else some (x.div (powerOfTen exponent.natAbs))
  else if x.numericEq .zero then some x
  else if 0 ≤ exponent then none
  else scaled (x.div (powerOfTen 308)) (exponent + 308)
termination_by exponent.natAbs
decreasing_by omega

def floatValue? (literal : JsonNumber) : Option Binary64 :=
  let (leading, restWhole) := takeFitting 0 literal.whole
  let (significand, restFraction) := takeFitting leading literal.fraction
  let exponent : Int :=
    literal.exponent.getD 0 + restWhole.length + restFraction.length - literal.fraction.length
  (scaled (.ofNat significand) exponent).map fun x => if literal.negative then x.neg else x

/-- The value of a literal as an integer of 64 bits; a negative zero is none. -/
def intValue? (literal : JsonNumber) : Option Int64 :=
  if literal.fraction.isEmpty && literal.exponent.isNone then
    let n : Int := Nat.ofDigitChars 10 literal.whole 0
    if literal.negative then (if n = 0 then none else Number.fitInt? (-n))
    else Number.fitInt? n
  else none

def value? (literal : JsonNumber) : Option Number :=
  match literal.intValue? with
  | some value => some (.int value)
  | none => literal.floatValue?.map .float

end JsonNumber

end BenchStats
