import BenchStats.Binary64.Rounding

/-!
# Arithmetic

Sums, products, quotients, the fused multiply-add and square roots, each rounded once. The rules
for infinities, zeros and not-a-number are those of the binary interchange format.
-/

namespace BenchStats.Binary64

def neg : Binary64 → Binary64
  | .nan => .nan
  | .infinite s => .infinite (!s)
  | .finite s m => .finite (!s) m

def abs : Binary64 → Binary64
  | .nan => .nan
  | .infinite _ => .infinite false
  | .finite _ m => .finite false m

/-- Opposite infinities have no sum, and an exact zero is negative only as a sum of two
negative zeros. -/
def add : Binary64 → Binary64 → Binary64
  | .nan, _ => .nan
  | _, .nan => .nan
  | .infinite s, .infinite t => if s = t then .infinite s else .nan
  | .infinite s, .finite _ _ => .infinite s
  | .finite _ _, .infinite t => .infinite t
  | .finite s m, .finite t n => ofRat (s && t) (signedValue s m + signedValue t n)

def sub (a b : Binary64) : Binary64 := add a b.neg

def mul : Binary64 → Binary64 → Binary64
  | .nan, _ => .nan
  | _, .nan => .nan
  | .infinite s, .infinite t => .infinite (s != t)
  | .infinite s, .finite t n => if n = .zero then .nan else .infinite (s != t)
  | .finite s m, .infinite t => if m = .zero then .nan else .infinite (s != t)
  | .finite s m, .finite t n => ofRat (s != t) (signedValue s m * signedValue t n)

def div : Binary64 → Binary64 → Binary64
  | .nan, _ => .nan
  | _, .nan => .nan
  | .infinite _, .infinite _ => .nan
  | .infinite s, .finite t _ => .infinite (s != t)
  | .finite s _, .infinite t => .finite (s != t) .zero
  | .finite s m, .finite t n =>
    if n = .zero then (if m = .zero then .nan else .infinite (s != t))
    else ofRat (s != t) (signedValue s m / signedValue t n)

/-- `a * b + c` with a single rounding. -/
def fma : Binary64 → Binary64 → Binary64 → Binary64
  | .finite s m, .finite t n, .finite u k =>
    ofRat ((s != t) && u) (signedValue s m * signedValue t n + signedValue u k)
  | .finite _ _, .finite _ _, c => c
  | a, b, c => add (mul a b) c

/-- The value scaled by an even power of two, so that its whole part has at least 110 bits, and
half the binary exponent that was taken out. -/
def evenScale (m : Magnitude) : Nat × Int :=
  let half := (m.exponent - 110) / 2
  (m.significand <<< (m.exponent - 2 * half).toNat, half)

/-- The square root, correctly rounded: of a scaled integer `n` with more than twice the bits that
are kept, `2 * √n` lies beside the odd number `2 * ⌊√n⌋ + 1` on every grid that matters. -/
def sqrt : Binary64 → Binary64
  | .nan => .nan
  | .infinite s => if s then .nan else .infinite false
  | .finite s m =>
    if m = .zero then .finite s .zero
    else if s then .nan
    else
      let (n, half) := evenScale m
      let root := n.sqrt
      if root * root = n then ofRat false ((root : Rat) * (2 : Rat) ^ half)
      else ofRat false (((2 * root + 1 : Nat) : Rat) * (2 : Rat) ^ (half - 1))

def floor : Binary64 → Binary64
  | .finite s m => ofRat s (signedValue s m).floor
  | x => x

/-- The natural number in a non-negative value without its fraction, held to `0 … limit`;
`0` for not-a-number. -/
def clampToNat (limit : Nat) : Binary64 → Nat
  | .nan => 0
  | .infinite s => if s then 0 else limit
  | .finite s m => if s then 0 else min limit m.value.floor.toNat

/-- The greater of two numbers; not-a-number stands aside. -/
def max (a b : Binary64) : Binary64 :=
  if a.isNaN then b else if b.isNaN then a else if a.lt b then b else a

/-- The lesser of two numbers; not-a-number stands aside. -/
def min (a b : Binary64) : Binary64 :=
  if a.isNaN then b else if b.isNaN then a else if b.lt a then b else a

def clamp (x lo hi : Binary64) : Binary64 :=
  if x.lt lo then lo else if hi.lt x then hi else x

/-- The sum from left to right. The empty sum is negative zero, which changes no summand. -/
def sum (xs : List Binary64) : Binary64 := xs.foldl add negativeZero

@[simp] theorem clampToNat_le (limit : Nat) (x : Binary64) : x.clampToNat limit ≤ limit := by
  unfold clampToNat
  split <;> (try split) <;> omega

end BenchStats.Binary64
