import BenchStats.Proofs.Decimal.Shortest
import BenchStats.Proofs.Number.Numeral
import Mathlib.Data.List.DropRight

/-!
# Written numbers read back

Every layout writes the leading digits of a decimal once and says, by the place of the point or by
an exponent, which power of ten the first of them has.  Reading gives a decimal with the same value,
so a number that is written with its shortest digits is read back without change.
-/

namespace BenchStats.Decimal

theorem takeWhile_isDigit_append {whole rest : List Char}
    (wholeDigits : ∀ c ∈ whole, c.isDigit = true) (stops : rest.head?.any Char.isDigit = false) :
    (whole ++ rest).takeWhile Char.isDigit = whole ∧
      (whole ++ rest).dropWhile Char.isDigit = rest := by
  rw [List.takeWhile_append_of_pos wholeDigits, List.dropWhile_append_of_pos wholeDigits]
  cases rest with
  | nil => simp
  | cons c rest =>
    have noDigit : c.isDigit = false := by simpa using stops
    simp [noDigit]

theorem head?_isDigit_of_exponent? {tail : List Char} {exponent : Int}
    (read : exponent? tail = some exponent) : tail.head?.any Char.isDigit = false := by
  unfold exponent? at read
  split at read
  next => rfl
  next c rest =>
    split at read
    next letter =>
      simp only [Bool.or_eq_true, decide_eq_true_eq] at letter
      rcases letter with rfl | rfl
      · rfl
      · rfl
    next => simp at read

theorem literal?_of_whole {whole tail : List Char} {exponent : Int} (nonempty : whole ≠ [])
    (wholeDigits : ∀ c ∈ whole, c.isDigit = true) (read : exponent? tail = some exponent) :
    literal? (whole ++ tail) = some ⟨Nat.ofDigitChars 10 whole 0, exponent⟩ := by
  obtain ⟨taken, dropped⟩ :=
    takeWhile_isDigit_append wholeDigits (head?_isDigit_of_exponent? read)
  have noPoint : takeFraction tail = ([], tail) := by
    unfold takeFraction
    split
    next => simp [exponent?] at read
    next => rfl
  simp [literal?, taken, dropped, noPoint, nonempty, read]

theorem literal?_of_point {whole fraction tail : List Char} {exponent : Int} (nonempty : whole ≠ [])
    (wholeDigits : ∀ c ∈ whole, c.isDigit = true)
    (fractionDigits : ∀ c ∈ fraction, c.isDigit = true)
    (read : exponent? tail = some exponent) :
    literal? (whole ++ '.' :: (fraction ++ tail)) =
      some ⟨Nat.ofDigitChars 10 (whole ++ fraction) 0, exponent - fraction.length⟩ := by
  have point : ('.' :: (fraction ++ tail)).head?.any Char.isDigit = false := rfl
  obtain ⟨taken, dropped⟩ := takeWhile_isDigit_append wholeDigits point
  obtain ⟨fractionTaken, fractionDropped⟩ :=
    takeWhile_isDigit_append fractionDigits (head?_isDigit_of_exponent? read)
  simp [literal?, taken, dropped, takeFraction, fractionTaken, fractionDropped, nonempty, read]

theorem literal?_of_point_at_end {whole fraction : List Char} (nonempty : whole ≠ [])
    (wholeDigits : ∀ c ∈ whole, c.isDigit = true)
    (fractionDigits : ∀ c ∈ fraction, c.isDigit = true) :
    literal? (whole ++ '.' :: fraction) =
      some ⟨Nat.ofDigitChars 10 (whole ++ fraction) 0, -fraction.length⟩ := by
  have noExponent : exponent? [] = some 0 := rfl
  have read := literal?_of_point nonempty wholeDigits fractionDigits noExponent
  rwa [List.append_nil, Int.zero_sub] at read

theorem le_ofDigitChars (digits : List Char) (start : Nat) :
    start ≤ Nat.ofDigitChars 10 digits start := by
  rw [Nat.ofDigitChars_eq_ofDigitChars_zero]
  have shift : 1 ≤ 10 ^ digits.length := Nat.one_le_pow _ _ (by decide)
  exact (Nat.le_mul_of_pos_left start shift).trans (Nat.le_add_right _ _)

theorem ofDigitChars_lt {digits : List Char} (isDigit : ∀ c ∈ digits, c.isDigit = true) :
    Nat.ofDigitChars 10 digits 0 < 10 ^ digits.length := by
  induction digits with
  | nil => simp [Nat.ofDigitChars_nil]
  | cons c rest inductionHypothesis =>
    rw [List.forall_mem_cons] at isDigit
    have few := inductionHypothesis isDigit.2
    have digit : c.toNat - '0'.toNat ≤ 9 := by
      have last : c.val ≤ '9'.val := by
        simp only [Char.isDigit, Bool.and_eq_true, decide_eq_true_eq] at isDigit
        exact isDigit.1.2
      exact Nat.sub_le_sub_right (UInt32.le_iff_toNat_le.1 last) '0'.toNat
    have first := Nat.mul_le_mul_left (10 ^ rest.length) digit
    rw [Nat.ofDigitChars_cons, Nat.ofDigitChars_eq_ofDigitChars_zero, List.length_cons, pow_succ,
      Nat.mul_zero, Nat.zero_add]
    omega

theorem exponentValue_of_lt {digits : List Char} (small : Nat.ofDigitChars 10 digits 0 < 65536) :
    exponentValue digits = Nat.ofDigitChars 10 digits 0 := by
  have readFrom (start : Nat) (bound : Nat.ofDigitChars 10 digits start < 65536) :
      digits.foldl (fun n c => if n < 65536 then 10 * n + (c.toNat - '0'.toNat) else n) start =
        Nat.ofDigitChars 10 digits start := by
    clear small
    induction digits generalizing start with
    | nil => rw [List.foldl_nil, Nat.ofDigitChars_nil]
    | cons c rest inductionHypothesis =>
      rw [Nat.ofDigitChars_cons] at bound ⊢
      have below : start < 65536 := by
        have grows := le_ofDigitChars rest (10 * start + (c.toNat - '0'.toNat))
        omega
      rw [List.foldl_cons, if_pos below, inductionHypothesis _ bound]
  exact readFrom 0 small

theorem exponent?_written (signsExponent : Bool) {exponent : Int}
    (small : exponent.natAbs < 65536) :
    exponent? ('e' :: ((if exponent < 0 then ['-'] else if signsExponent then ['+'] else []) ++
      Nat.toDigits 10 exponent.natAbs)) = some exponent := by
  have digits : ∀ c ∈ Nat.toDigits 10 exponent.natAbs, c.isDigit = true := by
    intro c member
    exact Nat.isDigit_of_mem_toDigits (by decide) (by decide) member
  have magnitude : exponentValue (Nat.toDigits 10 exponent.natAbs) = exponent.natAbs := by
    rw [exponentValue_of_lt, Nat.ofDigitChars_ten_toDigits]
    rwa [Nat.ofDigitChars_ten_toDigits]
  have digitsOnly : ((Nat.toDigits 10 exponent.natAbs).isEmpty ||
      !(Nat.toDigits 10 exponent.natAbs).all Char.isDigit) = false := by
    simpa using digits
  have signed : takeSign ((if exponent < 0 then ['-'] else if signsExponent then ['+'] else []) ++
      Nat.toDigits 10 exponent.natAbs) =
        (decide (exponent < 0), Nat.toDigits 10 exponent.natAbs) := by
    by_cases negative : exponent < 0
    · rw [if_pos negative, decide_eq_true negative]
      rfl
    · rw [if_neg negative, decide_eq_false negative]
      cases signsExponent with
      | true => rfl
      | false => exact Number.takeSign_of_digits digits
  rw [exponent?]
  simp only [signed, digitsOnly, magnitude, decide_true, Bool.true_or, if_true,
    Bool.false_eq_true, if_false, decide_eq_true_eq, Option.some.injEq]
  split
  next negative => omega
  next nonneg => omega

@[simp] theorem ofDigitChars_zeros_append (zeros : Nat) (digits : List Char) :
    Nat.ofDigitChars 10 (List.replicate zeros '0' ++ digits) 0 = Nat.ofDigitChars 10 digits 0 := by
  rw [Nat.ofDigitChars_append, Nat.ofDigitChars_replicate_zero, Nat.mul_zero]

@[simp] theorem ofDigitChars_append_zeros (digits : List Char) (zeros : Nat) :
    Nat.ofDigitChars 10 (digits ++ List.replicate zeros '0') 0 =
      10 ^ zeros * Nat.ofDigitChars 10 digits 0 := by
  rw [Nat.ofDigitChars_append, Nat.ofDigitChars_replicate_zero]

@[simp] theorem value_append_zeros (digits : List Char) (zeros : Nat) (exponent : Int) :
    value ⟨Nat.ofDigitChars 10 (digits ++ List.replicate zeros '0') 0, exponent⟩ =
      value ⟨Nat.ofDigitChars 10 digits 0, exponent + zeros⟩ := by
  simp only [value, ofDigitChars_append_zeros]
  rw [zpow_add₀ (by norm_num), zpow_natCast]
  push_cast
  ring

theorem isDigit_of_mem_zeros (zeros : Nat) : ∀ c ∈ List.replicate zeros '0', c.isDigit = true := by
  intro c member
  rw [List.eq_of_mem_replicate member]
  rfl

section Layouts

variable {digits : List Char} (allDigits : ∀ c ∈ digits, c.isDigit = true)

include allDigits

theorem literal?_zeros_before (zeros : Nat) :
    literal? ('0' :: '.' :: (List.replicate zeros '0' ++ digits)) =
      some ⟨Nat.ofDigitChars 10 digits 0, -((zeros + digits.length : Nat) : Int)⟩ := by
  have fractionDigits : ∀ c ∈ List.replicate zeros '0' ++ digits, c.isDigit = true :=
    List.forall_mem_append.2 ⟨isDigit_of_mem_zeros zeros, allDigits⟩
  have read := literal?_of_point_at_end (List.cons_ne_nil '0' []) (isDigit_of_mem_zeros 1)
    fractionDigits
  rwa [← List.append_assoc, List.singleton_append, List.singleton_append, ← List.replicate_succ,
    ofDigitChars_zeros_append, List.length_append, List.length_replicate] at read

variable (nonempty : digits ≠ [])

include nonempty

theorem literal?_zeros_behind (keepsPoint : Bool) (zeros : Nat) :
    ∃ d, literal? (digits ++ List.replicate zeros '0' ++ if keepsPoint then ['.', '0'] else []) =
        some d ∧
      d.value = value ⟨Nat.ofDigitChars 10 digits 0, zeros⟩ := by
  have wholeDigits : ∀ c ∈ digits ++ List.replicate zeros '0', c.isDigit = true :=
    List.forall_mem_append.2 ⟨allDigits, isDigit_of_mem_zeros zeros⟩
  have wholeNonempty : digits ++ List.replicate zeros '0' ≠ [] :=
    List.append_ne_nil_of_left_ne_nil nonempty _
  cases keepsPoint with
  | false =>
    refine ⟨_, literal?_of_whole wholeNonempty wholeDigits rfl, ?_⟩
    rw [value_append_zeros, Int.zero_add]
  | true =>
    refine ⟨_, literal?_of_point_at_end wholeNonempty wholeDigits (isDigit_of_mem_zeros 1), ?_⟩
    apply (value_append_zeros (digits ++ List.replicate zeros '0') 1 _).trans
    rw [value_append_zeros]
    congr 2
    simp

theorem literal?_point_inside {place : Nat} (behind : 0 < place) :
    literal? (digits.take place ++ '.' :: digits.drop place) =
      some ⟨Nat.ofDigitChars 10 digits 0, -((digits.length - place : Nat) : Int)⟩ := by
  have takenNonempty : digits.take place ≠ [] := by
    simp [nonempty, behind.ne']
  have takenDigits : ∀ c ∈ digits.take place, c.isDigit = true :=
    fun c member => allDigits c (List.mem_of_mem_take member)
  have droppedDigits : ∀ c ∈ digits.drop place, c.isDigit = true :=
    fun c member => allDigits c (List.mem_of_mem_drop member)
  have read := literal?_of_point_at_end takenNonempty takenDigits droppedDigits
  rwa [List.take_append_drop, List.length_drop] at read

theorem literal?_positionalText (keepsPoint : Bool) (point : Int) :
    ∃ d, literal? (positionalText keepsPoint digits point) = some d ∧
      d.value = value ⟨Nat.ofDigitChars 10 digits 0, point - digits.length⟩ := by
  rw [positionalText]
  split
  next left =>
    have scale : point - digits.length = -(((-point).toNat + digits.length : Nat) : Int) := by
      omega
    exact ⟨_, literal?_zeros_before allDigits _, by rw [scale]⟩
  next =>
    split
    next right =>
      have scale : point - digits.length = (point.toNat - digits.length : Nat) := by omega
      rw [scale]
      exact literal?_zeros_behind allDigits nonempty keepsPoint _
    next inside =>
      have scale : point - digits.length = -((digits.length - point.toNat : Nat) : Int) := by
        omega
      exact ⟨_, literal?_point_inside allDigits nonempty (by omega), by rw [scale]⟩

theorem literal?_scientificText (signsExponent : Bool) {exponent : Int}
    (small : exponent.natAbs < 65536) :
    ∃ d, literal? (scientificText signsExponent digits exponent) = some d ∧
      d.value = value ⟨Nat.ofDigitChars 10 digits 0, exponent + 1 - digits.length⟩ := by
  obtain ⟨first, rest, rfl⟩ := List.exists_cons_of_ne_nil nonempty
  have firstDigits : ∀ c ∈ [first], c.isDigit = true := by
    simpa using allDigits first List.mem_cons_self
  have restDigits : ∀ c ∈ rest, c.isDigit = true :=
    fun c member => allDigits c (List.mem_cons_of_mem _ member)
  have written := exponent?_written signsExponent small
  cases rest with
  | nil =>
    refine ⟨_, literal?_of_whole (List.cons_ne_nil _ _) firstDigits written, ?_⟩
    congr 2
    simp
  | cons second rest =>
    have read := literal?_of_point (List.cons_ne_nil _ _) firstDigits restDigits written
    have shape : scientificText signsExponent (first :: second :: rest) exponent =
        [first] ++ '.' :: (second :: rest ++ 'e' ::
          ((if exponent < 0 then ['-'] else if signsExponent then ['+'] else []) ++
            Nat.toDigits 10 exponent.natAbs)) := by
      simp [scientificText]
    rw [shape]
    refine ⟨_, read, ?_⟩
    congr 2
    simp only [List.length_cons]
    omega

end Layouts

theorem toDigits_eq_leadingDigits (n : Nat) :
    ∃ zeros, Nat.toDigits 10 n = leadingDigits n ++ List.replicate zeros '0' := by
  rw [leadingDigits]
  split
  next zero =>
    rw [zero, Nat.toDigits_zero]
    exact ⟨0, rfl⟩
  next =>
    have zeros : ∀ c ∈ (Nat.toDigits 10 n).rtakeWhile (· = '0'), c = '0' := by
      intro c member
      simpa using List.mem_rtakeWhile_imp member
    refine ⟨((Nat.toDigits 10 n).rtakeWhile (· = '0')).length, ?_⟩
    rw [← List.eq_replicate_of_mem zeros]
    exact List.rdropWhile_append_rtakeWhile.symm

@[simp] theorem leadingDigits_ne_nil (n : Nat) : leadingDigits n ≠ [] := by
  intro nothing
  obtain ⟨zeros, digits⟩ := toDigits_eq_leadingDigits n
  have number := Nat.ofDigitChars_ten_toDigits (n := n)
  rw [digits, nothing, List.nil_append, Nat.ofDigitChars_replicate_zero, Nat.mul_zero] at number
  rw [← number] at nothing
  exact absurd nothing (by decide)

theorem isDigit_of_mem_leadingDigits {n : Nat} {c : Char} (member : c ∈ leadingDigits n) :
    c.isDigit = true := by
  obtain ⟨zeros, digits⟩ := toDigits_eq_leadingDigits n
  apply Nat.isDigit_of_mem_toDigits (b := 10) (n := n) (by decide) (by decide)
  rw [digits]
  exact List.mem_append_left _ member

theorem value_eq_leadingDigits (d : Decimal) :
    d.value = value ⟨Nat.ofDigitChars 10 (leadingDigits d.digits) 0,
      leadingExponent d + 1 - (leadingDigits d.digits).length⟩ := by
  by_cases zero : d.digits = 0
  · have nothing : Nat.ofDigitChars 10 (leadingDigits 0) 0 = 0 := rfl
    simp only [value, zero, nothing, Nat.cast_zero, zero_mul]
  · obtain ⟨zeros, digits⟩ := toDigits_eq_leadingDigits d.digits
    have scale : leadingExponent d + 1 - (leadingDigits d.digits).length =
        d.exponent + zeros := by
      rw [leadingExponent, if_neg zero, digits, List.length_append, List.length_replicate]
      omega
    rw [scale, ← value_append_zeros, ← digits, Nat.ofDigitChars_ten_toDigits]

/-- The text of a decimal reads back as a decimal with its value. -/
theorem literal?_text (layout : Layout) {d : Decimal}
    (small : (leadingExponent d).natAbs < 65536) :
    ∃ read, literal? (layout.text d) = some read ∧ read.value = d.value := by
  have nonempty := leadingDigits_ne_nil d.digits
  have allDigits : ∀ c ∈ leadingDigits d.digits, c.isDigit = true :=
    fun c member => isDigit_of_mem_leadingDigits member
  rw [value_eq_leadingDigits d]
  simp only [Layout.text]
  split
  next => exact literal?_positionalText allDigits nonempty layout.keepsPoint _
  next => exact literal?_scientificText allDigits nonempty layout.signsExponent small

theorem head_of_literal? {text : List Char} {d : Decimal} (read : literal? text = some d) :
    ∃ c rest, text = c :: rest ∧ (c.isDigit = true ∨ c = '.') := by
  cases text with
  | nil => simp [literal?, takeFraction] at read
  | cons c rest =>
    refine ⟨c, rest, rfl, ?_⟩
    by_contra neither
    obtain ⟨noDigit, noPoint⟩ := not_or.1 neither
    have noFraction : takeFraction (c :: rest) = ([], c :: rest) := by
      unfold takeFraction
      split
      next point => exact absurd (List.cons.inj point).1 noPoint
      next => rfl
    simp [literal?, noDigit, noFraction] at read

theorem takeSign_of_literal? {text : List Char} {d : Decimal} (read : literal? text = some d) :
    takeSign text = (false, text) := by
  obtain ⟨c, rest, rfl, start⟩ := head_of_literal? read
  unfold takeSign
  split
  next minus =>
    rw [(List.cons.inj minus).1] at start
    exact absurd start (by decide)
  next plus =>
    rw [(List.cons.inj plus).1] at start
    exact absurd start (by decide)
  next => rfl

theorem ofName?_of_literal? (negative : Bool) {text : List Char} {d : Decimal}
    (read : literal? text = some d) : Binary64.ofName? negative text = none := by
  obtain ⟨c, rest, rfl, start⟩ := head_of_literal? read
  have kept : c.toLower = c := by
    rcases start with digit | rfl
    · simp only [Char.isDigit, Bool.and_eq_true, decide_eq_true_eq] at digit
      refine dif_neg fun upper => ?_
      exact absurd (UInt32.le_trans upper.1 digit.2) (by decide)
    · rfl
  have noName (name : Char) (other : name.isDigit = false ∧ name ≠ '.') : c.toLower ≠ name := by
    rintro rfl
    rw [kept] at other
    rcases start with digit | point
    · exact absurd digit (by rw [other.1]; decide)
    · exact other.2 point
  have noNaN := noName 'n' (by decide)
  have noInfinity := noName 'i' (by decide)
  simp [Binary64.ofName?, noNaN, noInfinity]

theorem takeSign_signed (negative : Bool) {text : List Char} {d : Decimal}
    (read : literal? text = some d) :
    takeSign ((if negative then ['-'] else []) ++ text) = (negative, text) := by
  cases negative with
  | true => rfl
  | false => exact takeSign_of_literal? read

theorem read?_of_literal? (negative : Bool) {text : List Char} {d : Decimal}
    (read : literal? text = some d) :
    Binary64.read? ((if negative then ['-'] else []) ++ text) =
      some (Binary64.ofDecimal negative d) := by
  rw [Binary64.read?]
  simp only [takeSign_signed negative read, ofName?_of_literal? negative read, read,
    Option.map_some]

/-- A number that is not not-a-number reads back from its text in any layout. -/
theorem read?_cellText (layout : Layout) {x : Binary64} (number : x.isNaN = false) :
    Binary64.read? (layout.cellText x).toList = some x := by
  cases x with
  | nan => exact absurd number (by decide)
  | infinite negative =>
    cases negative with
    | true => exact (by decide : Binary64.read? "-inf".toList = some (.infinite true))
    | false => exact (by decide : Binary64.read? "inf".toList = some (.infinite false))
  | finite negative x =>
    obtain ⟨d, read, value⟩ :=
      literal?_text layout (natAbs_leadingExponent_shortest_lt layout.tie x)
    rw [Layout.cellText, String.toList_ofList, Layout.finiteText,
      read?_of_literal? negative read, ← ofDecimal_shortest negative layout.tie x,
      Binary64.ofDecimal, Binary64.ofDecimal, value]

theorem mem_positionalText {keepsPoint : Bool} {digits : List Char} {point : Int} {c : Char}
    (member : c ∈ positionalText keepsPoint digits point) :
    c ∈ digits ∨ c = '0' ∨ c = '.' := by
  unfold positionalText at member
  split at member
  next =>
    simp only [List.mem_cons, List.mem_append, List.mem_replicate] at member
    tauto
  next =>
    split at member
    next =>
      cases keepsPoint with
      | true =>
        simp only [if_true, List.mem_cons, List.mem_append, List.mem_replicate,
          List.not_mem_nil] at member
        tauto
      | false =>
        simp only [Bool.false_eq_true, if_false, List.mem_append, List.mem_replicate,
          List.not_mem_nil] at member
        tauto
    next =>
      rcases List.mem_append.1 member with taken | dropped
      · exact Or.inl (List.mem_of_mem_take taken)
      · rcases List.mem_cons.1 dropped with point | dropped
        · exact Or.inr (Or.inr point)
        · exact Or.inl (List.mem_of_mem_drop dropped)

theorem mem_scientificText {signsExponent : Bool} {digits : List Char} {exponent : Int} {c : Char}
    (member : c ∈ scientificText signsExponent digits exponent) :
    c ∈ digits ∨ c.isDigit = true ∨ c ∈ ['.', 'e', '-', '+'] := by
  rw [scientificText, List.mem_append, List.mem_append] at member
  rcases member with (first | fraction) | power
  · exact Or.inl (List.mem_of_mem_take first)
  · split at fraction
    next => simp at fraction
    next =>
      rcases List.mem_cons.1 fraction with rfl | dropped
      · exact Or.inr (Or.inr (by decide))
      · exact Or.inl (List.mem_of_mem_drop dropped)
  · rcases List.mem_cons.1 power with rfl | power
    · exact Or.inr (Or.inr (by decide))
    rcases List.mem_append.1 power with sign | digit
    · refine Or.inr (Or.inr ?_)
      split at sign
      next => rw [List.mem_singleton.1 sign]; decide
      next =>
        split at sign
        next => rw [List.mem_singleton.1 sign]; decide
        next => simp at sign
    · exact Or.inr (Or.inl (Nat.isDigit_of_mem_toDigits (by decide) (by decide) digit))

theorem mem_text {layout : Layout} {d : Decimal} {c : Char} (member : c ∈ layout.text d) :
    c.isDigit = true ∨ c ∈ ['.', 'e', '-', '+'] := by
  simp only [Layout.text] at member
  split at member
  next =>
    rcases mem_positionalText member with digit | rfl | rfl
    · exact Or.inl (isDigit_of_mem_leadingDigits digit)
    · exact Or.inl (by decide)
    · exact Or.inr (by decide)
  next =>
    rcases mem_scientificText member with digit | digit | mark
    · exact Or.inl (isDigit_of_mem_leadingDigits digit)
    · exact Or.inl digit
    · exact Or.inr mark

/-- Where the point is kept, the text of a number is told from that of an integer. -/
theorem exists_mem_text_not_digit {layout : Layout} (keeps : layout.keepsPoint = true)
    (d : Decimal) : ∃ c ∈ layout.text d, c.isDigit = false := by
  simp only [Layout.text, keeps]
  split
  next =>
    refine ⟨'.', ?_, by decide⟩
    unfold positionalText
    split
    next => simp
    next =>
      split
      next => simp
      next => simp
  next =>
    refine ⟨'e', ?_, by decide⟩
    simp [scientificText]

end BenchStats.Decimal
