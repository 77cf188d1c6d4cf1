import BenchStats.Proofs.Binary64.Arithmetic

/-!
# Exchanging operands

Sums and products are rounded from exact ones, so their operands can be exchanged.  Rounding does
not depend on the sign, so a difference taken the other way round only changes its sign.
-/

namespace BenchStats.Binary64

theorem add_swap (a b : Binary64) : a.add b = b.add a := by
  cases a with
  | nan => cases b <;> rfl
  | infinite s =>
    cases b with
    | infinite t => cases s <;> cases t <;> rfl
    | _ => rfl
  | finite s m =>
    cases b with
    | finite t n => rw [add, add, Bool.and_comm, Rat.add_comm]
    | _ => rfl

theorem mul_swap (a b : Binary64) : a.mul b = b.mul a := by
  cases a with
  | nan => cases b <;> rfl
  | infinite s =>
    cases b with
    | nan => rfl
    | infinite t => rw [mul, mul, bne_comm]
    | finite t n => rw [mul, mul, bne_comm]
  | finite s m =>
    cases b with
    | nan => rfl
    | infinite t => rw [mul, mul, bne_comm]
    | finite t n => rw [mul, mul, bne_comm, Rat.mul_comm]

@[simp] theorem neg_ofRat (zeroNegative : Bool) (q : Rat) :
    (ofRat zeroNegative q).neg = ofRat (!zeroNegative) (-q) := by
  rcases lt_trichotomy q 0 with negative | rfl | positive
  · have opposite : 0 < -q := neg_pos.2 negative
    rw [ofRat, ofRat, if_neg negative.ne, if_neg opposite.ne', if_pos negative,
      if_neg opposite.not_gt, decide_eq_true negative, decide_eq_false opposite.not_gt]
    cases Magnitude.nearest? (-q) <;> rfl
  · rw [neg_zero, ofRat, ofRat, if_pos rfl, if_pos rfl]
    rfl
  · have opposite : -q < 0 := neg_neg_iff_pos.2 positive
    rw [ofRat, ofRat, if_neg positive.ne', if_neg opposite.ne, if_neg positive.not_gt,
      if_pos opposite, decide_eq_false positive.not_gt, decide_eq_true opposite, neg_neg]
    cases Magnitude.nearest? q <;> rfl

@[simp] theorem abs_neg_eq (a : Binary64) : a.neg.abs = a.abs := by
  cases a <;> rfl

theorem abs_ofRat (s t : Bool) (q : Rat) : (ofRat s q).abs = (ofRat t q).abs := by
  by_cases zero : q = 0
  · rw [ofRat, ofRat, if_pos zero, if_pos zero]
    rfl
  · rw [ofRat, ofRat, if_neg zero, if_neg zero]

theorem abs_sub_swap (a b : Binary64) : (a.sub b).abs = (b.sub a).abs := by
  cases a with
  | nan => cases b <;> rfl
  | infinite s =>
    cases b with
    | infinite t => cases s <;> cases t <;> rfl
    | _ => rfl
  | finite s m =>
    cases b with
    | finite t n =>
      have opposite : signedValue s m + signedValue (!t) n =
          -(signedValue t n + signedValue (!s) m) := by
        rw [signedValue_not, signedValue_not]
        ring
      rw [sub, sub, neg, neg, add, add, opposite, ← abs_neg_eq (ofRat (t && !s) _), neg_ofRat]
      exact abs_ofRat _ _ _
    | _ => rfl

end BenchStats.Binary64
