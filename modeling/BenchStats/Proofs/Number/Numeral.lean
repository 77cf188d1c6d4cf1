import BenchStats.Number

/-!
# Integers in decimal

An integer literal is read as the integer it denotes, if that fits in 64 bits, and nothing else is
read as one.  The text of an integer is such a literal.
-/

namespace BenchStats.Number

/-- The digits of an integer behind a minus sign, if it is negative.  Zeros may stand in front. -/
def IsNumeral (value : Int) (text : List Char) : Prop :=
  ∃ digits : List Char, digits ≠ [] ∧ (∀ c ∈ digits, c.isDigit = true) ∧
    Nat.ofDigitChars 10 digits 0 = value.natAbs ∧
    text = (if value < 0 then ['-'] else []) ++ digits

@[simp] theorem isNumeral_intText (value : Int) : IsNumeral value (intText value).toList := by
  refine ⟨Nat.toDigits 10 value.natAbs, Nat.toDigits_ne_nil, ?_, Nat.ofDigitChars_ten_toDigits, ?_⟩
  · intro c member
    exact Nat.isDigit_of_mem_toDigits (by decide) (by decide) member
  · rw [intText, String.toList_ofList]

theorem takeSign_of_digits {digits : List Char} (isDigit : ∀ c ∈ digits, c.isDigit = true) :
    Decimal.takeSign digits = (false, digits) := by
  unfold Decimal.takeSign
  split
  next => exact absurd (isDigit '-' List.mem_cons_self) (by decide)
  next => exact absurd (isDigit '+' List.mem_cons_self) (by decide)
  next => rfl

@[simp] theorem fitInt?_toInt (value : Int64) : fitInt? value.toInt = some value := by
  rw [fitInt?, if_pos ⟨value.minValue_le_toInt, value.toInt_le⟩, Int64.ofInt_toInt]

theorem toInt_of_fitInt? {i : Int} {value : Int64} (fits : fitInt? i = some value) :
    value.toInt = i := by
  unfold fitInt? at fits
  split at fits
  next bounds =>
    rw [← Option.some.inj fits]
    exact Int64.toInt_ofInt_of_le bounds.1 (Int.lt_of_le_of_lt bounds.2 (by decide))
  next => simp at fits

/-- An integer literal and the integer it denotes: digits of ASCII behind an optional sign, with any
number of zeros in front. -/
inductive IsIntegerLiteral : List Char → Int → Prop where
  | unsigned {digits : List Char} : digits ≠ [] → (∀ c ∈ digits, c.isDigit = true) →
      IsIntegerLiteral digits (Nat.ofDigitChars 10 digits 0)
  | plus {digits : List Char} : digits ≠ [] → (∀ c ∈ digits, c.isDigit = true) →
      IsIntegerLiteral ('+' :: digits) (Nat.ofDigitChars 10 digits 0)
  | minus {digits : List Char} : digits ≠ [] → (∀ c ∈ digits, c.isDigit = true) →
      IsIntegerLiteral ('-' :: digits) (-(Nat.ofDigitChars 10 digits 0 : Int))

theorem readInt?_of_takeSign {token digits : List Char} {negative : Bool}
    (signed : Decimal.takeSign token = (negative, digits)) (nonempty : digits ≠ [])
    (isDigit : ∀ c ∈ digits, c.isDigit = true) :
    readInt? token = fitInt? (if negative then -(Nat.ofDigitChars 10 digits 0 : Int)
      else Nat.ofDigitChars 10 digits 0) := by
  have digitsOnly : (digits.isEmpty || !digits.all Char.isDigit) = false := by
    simpa [nonempty] using isDigit
  rw [readInt?, signed]
  simp only [digitsOnly, Bool.false_eq_true, if_false]

theorem readInt?_of_isIntegerLiteral {token : List Char} {i : Int}
    (literal : IsIntegerLiteral token i) : readInt? token = fitInt? i := by
  cases literal with
  | unsigned nonempty isDigit =>
    exact readInt?_of_takeSign (takeSign_of_digits isDigit) nonempty isDigit
  | plus nonempty isDigit => exact readInt?_of_takeSign rfl nonempty isDigit
  | minus nonempty isDigit => exact readInt?_of_takeSign rfl nonempty isDigit

theorem isIntegerLiteral_of_readInt? {token : List Char} {value : Int64}
    (read : readInt? token = some value) : IsIntegerLiteral token value.toInt := by
  rcases signed : Decimal.takeSign token with ⟨negative, digits⟩
  have digitsOnly : (digits.isEmpty || !digits.all Char.isDigit) = false := by
    refine Bool.eq_false_iff.2 fun other => ?_
    rw [readInt?, signed] at read
    simp only [other, if_true] at read
    cases read
  simp only [Bool.or_eq_false_iff, List.isEmpty_eq_false_iff, Bool.not_eq_false',
    List.all_eq_true] at digitsOnly
  obtain ⟨nonempty, isDigit⟩ := digitsOnly
  rw [readInt?_of_takeSign signed nonempty isDigit] at read
  rw [toInt_of_fitInt? read]
  unfold Decimal.takeSign at signed
  split at signed <;> cases signed
  next => exact .minus nonempty isDigit
  next => exact .plus nonempty isDigit
  next => exact .unsigned nonempty isDigit

/-- The integers that are read are those of the literals within 64 bits. -/
@[simp] theorem readInt?_eq_some_iff {token : List Char} {value : Int64} :
    readInt? token = some value ↔ IsIntegerLiteral token value.toInt := by
  refine ⟨isIntegerLiteral_of_readInt?, fun literal => ?_⟩
  simp [readInt?_of_isIntegerLiteral literal]

@[simp] theorem ofToken?_eq_int_iff {token : List Char} {value : Int64} :
    ofToken? token = some (.int value) ↔ IsIntegerLiteral token value.toInt := by
  rw [← readInt?_eq_some_iff, ofToken?]
  cases readInt? token with
  | some other => simp
  | none => simp

theorem IsNumeral.isIntegerLiteral {value : Int} {text : List Char}
    (numeral : IsNumeral value text) : IsIntegerLiteral text value := by
  obtain ⟨digits, nonempty, isDigit, magnitude, rfl⟩ := numeral
  by_cases negative : value < 0
  · have signed : value = -(Nat.ofDigitChars 10 digits 0 : Int) := by omega
    rw [if_pos negative, signed]
    exact .minus nonempty isDigit
  · have unsigned : value = Nat.ofDigitChars 10 digits 0 := by omega
    rw [if_neg negative, unsigned]
    exact .unsigned nonempty isDigit

theorem ofToken?_of_isNumeral {value : Int64} {text : List Char}
    (numeral : IsNumeral value.toInt text) : ofToken? text = some (.int value) :=
  ofToken?_eq_int_iff.2 numeral.isIntegerLiteral

theorem IsNumeral.ne_nil {value : Int} {text : List Char} (numeral : IsNumeral value text) :
    text ≠ [] := by
  obtain ⟨digits, nonempty, -, -, rfl⟩ := numeral
  simp [nonempty]

theorem IsNumeral.mem {value : Int} {text : List Char} (numeral : IsNumeral value text) {c : Char}
    (member : c ∈ text) : c = '-' ∨ c.isDigit = true := by
  obtain ⟨digits, -, isDigit, -, rfl⟩ := numeral
  rcases List.mem_append.1 member with sign | digit
  · split at sign
    · exact Or.inl (by simpa using sign)
    · simp at sign
  · exact Or.inr (isDigit c digit)

theorem IsNumeral.solid {value : Int} {text : List Char} (numeral : IsNumeral value text) :
    ∀ c ∈ text, Text.isBlank c = false := by
  intro c member
  rcases numeral.mem member with rfl | digit
  · decide
  · exact Text.isBlank_of_isDigit digit

end BenchStats.Number
