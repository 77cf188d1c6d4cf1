import BenchStats.Binary64.Basic

/-!
# Rounding to the nearest binary floating-point number

Every arithmetic operation is the exact operation on rational values followed by one rounding to
the nearest number, where a tie goes to the even neighbour. Ranks make the rounding uniform: the
rounded significand is added to the rank at which its block starts, so a carry into the next block
and the values below the normal range need no case of their own.
-/

namespace BenchStats

/-- The integer nearest to a rational number; of two equally near ones the even one. -/
def roundHalfEven (q : Rat) : Int :=
  let below := q.floor
  let rest := q - below
  if rest < 1 / 2 then below
  else if 1 / 2 < rest then below + 1
  else below + below % 2

/-- The integer `k` with `2 ^ k ≤ q < 2 ^ (k + 1)`, for a positive `q`. -/
def binaryOrder (q : Rat) : Int :=
  let k : Int := (q.num.natAbs.log2 : Int) - q.den.log2
  if (2 : Rat) ^ k ≤ q then k else k - 1

namespace Magnitude

/-- The exponent of the last bit that is kept of a positive value. -/
def keptExponent (q : Rat) : Int := max (-1074) (binaryOrder q - 52)

/-- The rank that a non-negative value rounds to, not bounded from above. -/
def nearestRank (q : Rat) : Nat :=
  if q = 0 then 0
  else
    let e := keptExponent q
    (roundHalfEven (q / (2 : Rat) ^ e)).toNat + (e + 1074).toNat * blockSize

/-- The magnitude nearest to a non-negative value, unless it is too large for the format. -/
def nearest? (q : Rat) : Option Magnitude :=
  if h : nearestRank q < 2047 * blockSize then some ⟨nearestRank q, h⟩ else none

end Magnitude

namespace Binary64

/-- The number nearest to a rational value. An exact zero takes the given sign; a value that
rounds to zero keeps its own. -/
def ofRat (zeroNegative : Bool) (q : Rat) : Binary64 :=
  if q = 0 then .finite zeroNegative .zero
  else
    let negative := decide (q < 0)
    match Magnitude.nearest? (if q < 0 then -q else q) with
    | some magnitude => .finite negative magnitude
    | none => .infinite negative

def ofInt (i : Int) : Binary64 := ofRat false i

def ofNat (n : Nat) : Binary64 := ofRat false n

end Binary64

end BenchStats
