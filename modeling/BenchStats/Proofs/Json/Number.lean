import BenchStats.Json.Printer
import BenchStats.Json.Tree
import BenchStats.Proofs.Decimal.Text

/-!
# JSON numbers are read as they are written

A number that has a JSON number is written as the canonical text of a literal: the digits before the
point do not start with a superfluous zero, and an exponent shows its sign.  Reading such a text
gives the literal back, whatever follows that does not go on with it.
-/

namespace BenchStats

namespace JsonNumber

/-! ### Canonical texts -/

def fractionText : List Char → List Char
  | [] => []
  | digits => '.' :: digits

@[simp] theorem fractionText_of_ne_nil {digits : List Char} (nonempty : digits ≠ []) :
    fractionText digits = '.' :: digits := by
  cases digits with
  | nil => exact absurd rfl nonempty
  | cons first others => rfl

def exponentText : Option Int → List Char
  | none => []
  | some exponent =>
    'e' :: ((if exponent < 0 then ['-'] else ['+']) ++ Nat.toDigits 10 exponent.natAbs)

def unsignedText (literal : JsonNumber) : List Char :=
  literal.whole ++ (fractionText literal.fraction ++ exponentText literal.exponent)

def text (literal : JsonNumber) : List Char :=
  (if literal.negative then ['-'] else []) ++ literal.unsignedText

/-- A literal that can be written: a zero before the point stands alone. -/
structure WellFormed (literal : JsonNumber) : Prop where
  whole_ne_nil : literal.whole ≠ []
  whole_isDigit : ∀ c ∈ literal.whole, c.isDigit = true
  zero_alone : literal.whole.head? = some '0' → literal.whole = ['0']
  fraction_isDigit : ∀ c ∈ literal.fraction, c.isDigit = true

/-- The exact value of the digits with the power of ten of the last one, without the sign. -/
def decimal (literal : JsonNumber) : Decimal :=
  ⟨Nat.ofDigitChars 10 (literal.whole ++ literal.fraction) 0,
    literal.exponent.getD 0 - literal.fraction.length⟩

end JsonNumber

namespace JsonTree

open JsonNumber

/-! ### Reading -/

/-- What follows does not go on with a number. -/
def EndsNumber (rest : List Char) : Prop :=
  ∀ c ∈ rest.head?, c.isDigit = false ∧ c ≠ '.' ∧ c ≠ 'e' ∧ c ≠ 'E'

@[simp] theorem endsNumber_nil : EndsNumber [] := fun _ member => by simp at member

theorem EndsNumber.noDigit {rest : List Char} (ends : EndsNumber rest) :
    rest.head?.any Char.isDigit = false := by
  cases rest with
  | nil => rfl
  | cons c rest => exact (ends c rfl).1

section Parts

variable {rest : List Char}

theorem readWhole_append {whole : List Char} (nonempty : whole ≠ [])
    (wholeDigits : ∀ c ∈ whole, c.isDigit = true)
    (zeroAlone : whole.head? = some '0' → whole = ['0'])
    (stops : rest.head?.any Char.isDigit = false) :
    readWhole (whole ++ rest) = some (whole, rest) := by
  obtain ⟨taken, dropped⟩ := Decimal.takeWhile_isDigit_append wholeDigits stops
  rw [readWhole, taken, dropped]
  split
  next => exact absurd rfl nonempty
  next => exact absurd (zeroAlone rfl) (by simp)
  next => rfl

theorem readFraction_text {fraction : List Char} (fractionDigits : ∀ c ∈ fraction, c.isDigit = true)
    (noDigit : rest.head?.any Char.isDigit = false) (noPoint : rest.head? ≠ some '.') :
    readFraction (fractionText fraction ++ rest) = some (fraction, rest) := by
  cases fraction with
  | nil =>
    unfold readFraction
    split
    next point => exact absurd (congrArg List.head? point) noPoint
    next => rfl
  | cons first others =>
    obtain ⟨taken, dropped⟩ := Decimal.takeWhile_isDigit_append fractionDigits noDigit
    have shape : fractionText (first :: others) ++ rest = '.' :: (first :: others ++ rest) := rfl
    rw [shape, readFraction, taken, dropped]

theorem readExponent_text (exponent : Option Int) (ends : EndsNumber rest) :
    readExponent (exponentText exponent ++ rest) = some (exponent, rest) := by
  cases exponent with
  | none =>
    cases rest with
    | nil => rfl
    | cons c rest =>
      obtain ⟨-, -, small, capital⟩ := ends c rfl
      simp [exponentText, readExponent, small, capital]
  | some exponent =>
    have digits : ∀ c ∈ Nat.toDigits 10 exponent.natAbs, c.isDigit = true :=
      fun c member => Nat.isDigit_of_mem_toDigits (by decide) (by decide) member
    obtain ⟨taken, dropped⟩ := Decimal.takeWhile_isDigit_append digits ends.noDigit
    have signed : Decimal.takeSign ((if exponent < 0 then ['-'] else ['+']) ++
        (Nat.toDigits 10 exponent.natAbs ++ rest)) =
          (decide (exponent < 0), Nat.toDigits 10 exponent.natAbs ++ rest) := by
      by_cases negative : exponent < 0
      · rw [if_pos negative, decide_eq_true negative]
        rfl
      · rw [if_neg negative, decide_eq_false negative]
        rfl
    rw [exponentText, List.cons_append, List.append_assoc, readExponent]
    simp only [signed, taken, dropped, decide_true, Bool.true_or, if_true, decide_eq_true_eq]
    split
    next nothing => exact absurd nothing Nat.toDigits_ne_nil
    next =>
      rw [Nat.ofDigitChars_ten_toDigits]
      congr 3
      split
      next negative => omega
      next nonneg => omega

end Parts

/-- A literal in its canonical text is read, whatever follows that does not go on with it. -/
theorem readNumber_text {literal : JsonNumber} (wellFormed : literal.WellFormed) {rest : List Char}
    (ends : EndsNumber rest) : readNumber (literal.text ++ rest) = some (literal, rest) := by
  have exponentNoDigit :
      (exponentText literal.exponent ++ rest).head?.any Char.isDigit = false := by
    cases literal.exponent with
    | none => exact ends.noDigit
    | some exponent => rfl
  have exponentNoPoint : (exponentText literal.exponent ++ rest).head? ≠ some '.' := by
    cases literal.exponent with
    | none => exact fun point => (ends '.' point).2.1 rfl
    | some exponent => simp [exponentText]
  have fractionNoDigit : (fractionText literal.fraction ++
      (exponentText literal.exponent ++ rest)).head?.any Char.isDigit = false := by
    cases literal.fraction with
    | nil => exact exponentNoDigit
    | cons first others => rfl
  have whole := readWhole_append wellFormed.whole_ne_nil wellFormed.whole_isDigit
    wellFormed.zero_alone fractionNoDigit
  have fraction := readFraction_text wellFormed.fraction_isDigit exponentNoDigit exponentNoPoint
  have exponent := readExponent_text literal.exponent ends
  have unsigned : literal.unsignedText ++ rest = literal.whole ++
      (fractionText literal.fraction ++ (exponentText literal.exponent ++ rest)) := by
    rw [unsignedText, List.append_assoc, List.append_assoc]
  cases negative : literal.negative with
  | true =>
    rw [text, negative, if_pos rfl, List.singleton_append, List.cons_append, readNumber, unsigned]
    simp only [whole, fraction, exponent, Option.bind_eq_bind, Option.bind_some, Option.pure_def,
      ← negative]
  | false =>
    rw [text, negative, if_neg Bool.false_ne_true, List.nil_append, readNumber, unsigned]
    · simp only [whole, fraction, exponent, Option.bind_eq_bind, Option.bind_some, Option.pure_def,
        ← negative]
    · intro tail minus
      obtain ⟨first, others, shape⟩ := List.exists_cons_of_ne_nil wellFormed.whole_ne_nil
      have isDigit := wellFormed.whole_isDigit first (shape ▸ List.mem_cons_self)
      rw [unsigned, shape, List.cons_append, List.cons.injEq] at minus
      rw [minus.1] at isDigit
      exact absurd isDigit (by decide)

end JsonTree

namespace JsonNumber

/-! ### Numbers as literals -/

/-- The literal that a decimal with a sign is written as. -/
def ofDecimal (negative : Bool) (d : Decimal) : JsonNumber :=
  let digits := Decimal.leadingDigits d.digits
  let exponent := Decimal.leadingExponent d
  let point := exponent + 1
  if Decimal.jsonLayout.isPositional exponent then
    if point ≤ 0 then ⟨negative, ['0'], List.replicate (-point).toNat '0' ++ digits, none⟩
    else if (digits.length : Int) ≤ point then
      ⟨negative, digits ++ List.replicate (point.toNat - digits.length) '0', ['0'], none⟩
    else ⟨negative, digits.take point.toNat, digits.drop point.toNat, none⟩
  else ⟨negative, digits.take 1, digits.drop 1, some exponent⟩

/-- The literal that a number is written as; what is not finite has none. -/
def ofNumber? : Number → Option JsonNumber
  | .int value => some ⟨value.toInt < 0, Nat.toDigits 10 value.toInt.natAbs, [], none⟩
  | .float (.finite negative x) =>
    some (ofDecimal negative (Decimal.shortest Decimal.jsonLayout.tie x))
  | .float _ => none

@[simp] theorem negative_ofDecimal (negative : Bool) (d : Decimal) :
    (ofDecimal negative d).negative = negative := by
  unfold ofDecimal
  dsimp only
  split
  next => split <;> (try split) <;> rfl
  next => rfl

theorem head?_toDigits_ne {n : Nat} (positive : 0 < n) :
    (Nat.toDigits 10 n).head? ≠ some '0' := by
  induction n using Nat.strongRecOn with
  | ind n inductionHypothesis =>
    rw [Nat.toDigits_eq_if (by decide)]
    split
    next small =>
      have digits : ∀ n < 10, 0 < n → n.digitChar ≠ '0' := by decide
      simpa using digits n small positive
    next large =>
      rw [List.head?_append_of_ne_nil _ Nat.toDigits_ne_nil]
      exact inductionHypothesis (n / 10) (by omega) (by omega)

theorem eq_zero_of_head?_leadingDigits {n : Nat}
    (zero : (Decimal.leadingDigits n).head? = some '0') : n = 0 := by
  by_contra nonzero
  obtain ⟨zeros, digits⟩ := Decimal.toDigits_eq_leadingDigits n
  have first := head?_toDigits_ne (Nat.pos_of_ne_zero nonzero)
  rw [digits, List.head?_append_of_ne_nil _ (Decimal.leadingDigits_ne_nil n)] at first
  exact first zero

section Digits

variable (d : Decimal)

theorem drop_leadingDigits_ne_nil {point : Int}
    (inside : ¬ ((Decimal.leadingDigits d.digits).length : Int) ≤ point) :
    (Decimal.leadingDigits d.digits).drop point.toNat ≠ [] := by
  intro nothing
  rw [List.drop_eq_nil_iff] at nothing
  have nonempty := List.length_pos_of_ne_nil (Decimal.leadingDigits_ne_nil d.digits)
  omega

@[simp] theorem text_ofDecimal (negative : Bool) :
    (ofDecimal negative d).unsignedText = Decimal.jsonLayout.text d := by
  have nonempty := Decimal.leadingDigits_ne_nil d.digits
  unfold ofDecimal Decimal.Layout.text
  dsimp only
  split
  next =>
    unfold Decimal.positionalText
    split
    next =>
      rw [unsignedText, fractionText_of_ne_nil (List.append_ne_nil_of_right_ne_nil _ nonempty)]
      simp [exponentText]
    next =>
      split
      next => simp [unsignedText, fractionText, exponentText, Decimal.jsonLayout]
      next inside =>
        rw [unsignedText, fractionText_of_ne_nil (drop_leadingDigits_ne_nil d inside)]
        simp [exponentText]
  next =>
    obtain ⟨first, others, shape⟩ := List.exists_cons_of_ne_nil nonempty
    rw [shape]
    cases others with
    | nil => simp [unsignedText, fractionText, exponentText, Decimal.scientificText,
        Decimal.jsonLayout]
    | cons second others => simp [unsignedText, fractionText, exponentText, Decimal.scientificText,
        Decimal.jsonLayout]

theorem fraction_or_exponent_ofDecimal (negative : Bool) :
    (ofDecimal negative d).fraction ≠ [] ∨ (ofDecimal negative d).exponent.isSome = true := by
  have nonempty := Decimal.leadingDigits_ne_nil d.digits
  unfold ofDecimal
  dsimp only
  split
  next =>
    split
    next => exact Or.inl (List.append_ne_nil_of_right_ne_nil _ nonempty)
    next =>
      split
      next => exact Or.inl (List.cons_ne_nil _ _)
      next inside => exact Or.inl (drop_leadingDigits_ne_nil d inside)
  next => exact Or.inr rfl

@[simp] theorem wellFormed_ofDecimal (negative : Bool) : (ofDecimal negative d).WellFormed := by
  have zeroAlone (zero : (Decimal.leadingDigits d.digits).head? = some '0') :
      Decimal.leadingDigits d.digits = ['0'] ∧ Decimal.leadingExponent d = 0 := by
    have value := eq_zero_of_head?_leadingDigits zero
    exact ⟨by rw [value]; rfl, if_pos value⟩
  have nonempty := Decimal.leadingDigits_ne_nil d.digits
  have isDigit : ∀ c ∈ Decimal.leadingDigits d.digits, c.isDigit = true :=
    fun c member => Decimal.isDigit_of_mem_leadingDigits member
  unfold ofDecimal
  dsimp only
  split
  next =>
    split
    next =>
      exact
        { whole_ne_nil := List.cons_ne_nil _ _
          whole_isDigit := Decimal.isDigit_of_mem_zeros 1
          zero_alone := fun _ => rfl
          fraction_isDigit :=
            List.forall_mem_append.2 ⟨Decimal.isDigit_of_mem_zeros _, isDigit⟩ }
    next =>
      split
      next =>
        exact
          { whole_ne_nil := List.append_ne_nil_of_left_ne_nil nonempty _
            whole_isDigit := List.forall_mem_append.2 ⟨isDigit, Decimal.isDigit_of_mem_zeros _⟩
            zero_alone := fun zero => by
              rw [List.head?_append_of_ne_nil _ nonempty] at zero
              rw [(zeroAlone zero).1, (zeroAlone zero).2]
              rfl
            fraction_isDigit := Decimal.isDigit_of_mem_zeros 1 }
      next before inside =>
        have behind : (Decimal.leadingExponent d + 1).toNat ≠ 0 := by omega
        exact
          { whole_ne_nil := by simp [nonempty, behind]
            whole_isDigit := fun c member => isDigit c (List.mem_of_mem_take member)
            zero_alone := fun zero => by
              rw [List.head?_take, if_neg behind] at zero
              rw [(zeroAlone zero).1, (zeroAlone zero).2] at inside
              exact absurd (Int.le_refl 1) inside
            fraction_isDigit := fun c member => isDigit c (List.mem_of_mem_drop member) }
  next =>
    exact
      { whole_ne_nil := by simp
        whole_isDigit := fun c member => isDigit c (List.mem_of_mem_take member)
        zero_alone := fun zero => by
          rw [List.head?_take, if_neg one_ne_zero] at zero
          rw [(zeroAlone zero).1]
          rfl
        fraction_isDigit := fun c member => isDigit c (List.mem_of_mem_drop member) }

end Digits

section Numbers

variable {value : Number} {literal : JsonNumber} (written : ofNumber? value = some literal)

include written

theorem wellFormed_ofNumber? : literal.WellFormed := by
  unfold ofNumber? at written
  split at written
  next value =>
    rw [← Option.some.inj written]
    exact
      { whole_ne_nil := Nat.toDigits_ne_nil
        whole_isDigit := fun c member => Nat.isDigit_of_mem_toDigits (by decide) (by decide) member
        zero_alone := fun zero => by
          rcases Nat.eq_zero_or_pos value.toInt.natAbs with vanishes | positive
          · rw [vanishes, Nat.toDigits_zero]
          · exact absurd zero (head?_toDigits_ne positive)
        fraction_isDigit := fun c member => absurd member List.not_mem_nil }
  next negative x =>
    rw [← Option.some.inj written]
    exact wellFormed_ofDecimal _ negative
  next => cases written

theorem text_ofNumber? : literal.text = Json.numberText value := by
  unfold ofNumber? at written
  split at written
  next value =>
    rw [← Option.some.inj written, Json.numberText, Number.intText, String.toList_ofList, text,
      unsignedText, fractionText, exponentText, List.append_nil, List.append_nil]
    simp only [decide_eq_true_eq]
  next negative x =>
    rw [← Option.some.inj written, Json.numberText, Decimal.Layout.finiteText, text, text_ofDecimal,
      negative_ofDecimal]
  next => cases written

end Numbers

@[simp] theorem ofNumber?_eq_none_iff {value : Number} :
    ofNumber? value = none ↔ ∃ x, value = .float x ∧ x.isFinite = false := by
  cases value with
  | int value => simp [ofNumber?]
  | float x => cases x <;> simp [ofNumber?, Binary64.isFinite]

@[simp] theorem numberText_of_not_finite {x : Binary64} (notFinite : x.isFinite = false) :
    Json.numberText (.float x) = "null".toList := by
  cases x with
  | nan => rfl
  | infinite negative => rfl
  | finite negative x => cases notFinite

end JsonNumber

end BenchStats
