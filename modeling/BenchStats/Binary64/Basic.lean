/-!
# Binary floating-point numbers

The 64-bit binary format. The finite magnitudes are numbered in increasing order, so a magnitude is
known by its rank; its exact rational value is read off the rank. Signs, infinities and a single
not-a-number value are added on top.
-/

namespace BenchStats

/-- The number of magnitudes in a block, all of which have the same binary exponent: `2 ^ 52`. -/
def Magnitude.blockSize : Nat := 4503599627370496

/-- A finite magnitude, known by its place in the increasing order of all finite magnitudes. -/
@[ext]
structure Magnitude where
  rank : Nat
  /-- There are `2047` blocks of finite magnitudes. -/
  rank_lt : rank < 2047 * Magnitude.blockSize
  deriving DecidableEq

namespace Magnitude

def zero : Magnitude := ⟨0, by decide⟩

/-- The integer that is scaled by `2 ^ exponent`; the first block has no leading bit. -/
def significand (x : Magnitude) : Nat :=
  if x.rank < blockSize then x.rank else blockSize + x.rank % blockSize

/-- The binary exponent of the last bit; the first two blocks share the least one. -/
def exponent (x : Magnitude) : Int :=
  ((max 1 (x.rank / blockSize) : Nat) : Int) - 1075

def value (x : Magnitude) : Rat := (x.significand : Rat) * (2 : Rat) ^ x.exponent

end Magnitude

/-- A binary floating-point number of 64 bits; all not-a-number patterns are one value. -/
inductive Binary64 where
  | nan
  | infinite (negative : Bool)
  | finite (negative : Bool) (magnitude : Magnitude)
  deriving DecidableEq

namespace Binary64

def zero : Binary64 := .finite false .zero

def negativeZero : Binary64 := .finite true .zero

def isNaN : Binary64 → Bool
  | .nan => true
  | _ => false

def isFinite : Binary64 → Bool
  | .finite _ _ => true
  | _ => false

/-- The exact value of a magnitude with a sign. Both zeros have the value `0`. -/
def signedValue (negative : Bool) (magnitude : Magnitude) : Rat :=
  if negative then -magnitude.value else magnitude.value

def value? : Binary64 → Option Rat
  | .finite negative magnitude => some (signedValue negative magnitude)
  | _ => none

/-- The place of the infinities, one behind the last finite magnitude. -/
def infiniteRank : Nat := 2047 * Magnitude.blockSize

/-- The bit pattern, with the usual quiet pattern for the one not-a-number value. -/
def toBits : Binary64 → Nat
  | .nan => 0x7ff8000000000000
  | .infinite negative => (if negative then 0x8000000000000000 else 0) + infiniteRank
  | .finite negative magnitude => (if negative then 0x8000000000000000 else 0) + magnitude.rank

/-- The place among all values that are numbers, infinities included; both zeros share one. -/
def numericKey? : Binary64 → Option Int
  | .nan => none
  | .infinite negative => some (if negative then -infiniteRank else infiniteRank)
  | .finite negative magnitude => some (if negative then -magnitude.rank else magnitude.rank)

/-- Numeric "less than"; nothing is less or greater than not-a-number. -/
def lt (a b : Binary64) : Bool :=
  match a.numericKey?, b.numericKey? with
  | some i, some j => i < j
  | _, _ => false

/-- Numeric "at most"; it never holds of not-a-number. -/
def le (a b : Binary64) : Bool :=
  match a.numericKey?, b.numericKey? with
  | some i, some j => i ≤ j
  | _, _ => false

/-- Numeric equality: the two zeros are equal, not-a-number equals nothing. -/
def numericEq (a b : Binary64) : Bool :=
  match a.numericKey?, b.numericKey? with
  | some i, some j => i == j
  | _, _ => false

/-- The place in the total order: negative zero comes before zero and not-a-number last. -/
def totalKey : Binary64 → Int
  | .nan => infiniteRank + 1
  | .infinite negative => if negative then -(infiniteRank : Int) - 1 else infiniteRank
  | .finite negative magnitude =>
    if negative then -(magnitude.rank : Int) - 1 else magnitude.rank

def totalLe (a b : Binary64) : Bool := a.totalKey ≤ b.totalKey

/-- The total order tells all values apart, so values that tie in it are the same. -/
theorem totalKey_injective {a b : Binary64} (same : a.totalKey = b.totalKey) : a = b := by
  have bound (m : Magnitude) : (m.rank : Int) < infiniteRank := Int.ofNat_lt.2 m.rank_lt
  cases a with
  | nan =>
    cases b with
    | nan => rfl
    | infinite t =>
      cases t <;> simp only [totalKey, if_true, Bool.false_eq_true, if_false] at same <;> omega
    | finite t n => have := bound n; cases t <;> simp [totalKey] at same <;> omega
  | infinite s =>
    cases b with
    | nan =>
      cases s <;> simp only [totalKey, if_true, Bool.false_eq_true, if_false] at same <;> omega
    | infinite t => cases s <;> cases t <;> simp [totalKey] at same ⊢ <;> omega
    | finite t n => have := bound n; cases s <;> cases t <;> simp [totalKey] at same <;> omega
  | finite s m =>
    cases b with
    | nan => have := bound m; cases s <;> simp [totalKey] at same <;> omega
    | infinite t => have := bound m; cases s <;> cases t <;> simp [totalKey] at same <;> omega
    | finite t n =>
      cases s <;> cases t <;> simp [totalKey, Magnitude.ext_iff] at same ⊢ <;> omega

theorem totalLe_trans {a b c : Binary64} (hab : a.totalLe b) (hbc : b.totalLe c) :
    a.totalLe c := by
  simp only [totalLe, decide_eq_true_eq] at *
  omega

theorem totalLe_total (a b : Binary64) : a.totalLe b || b.totalLe a := by
  simp only [totalLe, Bool.or_eq_true, decide_eq_true_eq]
  omega

end Binary64

end BenchStats
