import BenchStats.Json.Printer
import BenchStats.Json.Tree

/-!
# JSON strings are read as they are written

Every character of a written string is read as one piece: as itself, as an escape of one letter, or
as the number of a control character, which is no half of a surrogate pair.
-/

namespace BenchStats.JsonTree

@[simp] theorem joinUnits_code {n : Nat} (small : n < 0xD800) (units : List StringUnit) :
    joinUnits (.code n :: units) = (joinUnits units).map (Char.ofNat n :: ·) := by
  have noHigh : ¬ (0xD800 ≤ n ∧ n < 0xDC00) := by omega
  have noLow : ¬ (0xDC00 ≤ n ∧ n < 0xE000) := by omega
  have noHalf : ¬ (0xD800 ≤ n ∧ n < 0xE000) := by omega
  cases units with
  | nil => simp [joinUnits, noHalf]
  | cons unit units =>
    cases unit with
    | char c => simp [joinUnits, noHalf]
    | code low => rw [joinUnits, if_neg noHigh, if_neg noLow]

@[simp] theorem hexNumber?_control {n : Nat} (control : n < 32) :
    Text.hexNumber? ['0', '0', Nat.digitChar (n / 16), Nat.digitChar (n % 16)] = some n := by
  have each : ∀ n < 32,
      Text.hexNumber? ['0', '0', Nat.digitChar (n / 16), Nat.digitChar (n % 16)] = some n := by
    decide
  exact each n control

theorem escapedChar_cases (c : Char) :
    (∃ letter, Json.escapedChar c = ['\\', letter] ∧ escapedChar? letter = some c) ∨
      (c.toNat < 32 ∧ Json.escapedChar c =
        ['\\', 'u', '0', '0', Nat.digitChar (c.toNat / 16), Nat.digitChar (c.toNat % 16)]) ∨
      (Json.escapedChar c = [c] ∧ c ≠ '"' ∧ c ≠ '\\' ∧ ¬ c.toNat < 32) := by
  by_cases letter : c ∈ ['"', '\\', '\x08', '\t', '\n', '\x0c', '\r']
  · have each : ∀ c ∈ ['"', '\\', '\x08', '\t', '\n', '\x0c', '\r'],
        ∃ letter, Json.escapedChar c = ['\\', letter] ∧ escapedChar? letter = some c := by
      simp [Json.escapedChar, escapedChar?]
    exact Or.inl (each c letter)
  · simp only [List.mem_cons, List.not_mem_nil, or_false, not_or] at letter
    by_cases control : c.toNat < 32
    · exact Or.inr (Or.inl ⟨control, by simp [Json.escapedChar, letter, control]⟩)
    · exact Or.inr (Or.inr ⟨by simp [Json.escapedChar, letter, control], letter.1, letter.2.1,
        control⟩)

section Units

variable {rest tail : List Char} {units : List StringUnit}
  (behind : readUnits rest = some (units, tail))

include behind

theorem readUnits_escapedChar (c : Char) :
    ∃ unit, readUnits (Json.escapedChar c ++ rest) = some (unit :: units, tail) ∧
      joinUnits (unit :: units) = (joinUnits units).map (c :: ·) := by
  rcases escapedChar_cases c with ⟨letter, text, stands⟩ | ⟨control, text⟩ |
    ⟨text, noQuote, noEscape, noControl⟩
  · have noNumber : letter ≠ 'u' := by
      rintro rfl
      cases stands
    refine ⟨.char c, ?_, by rw [joinUnits]⟩
    rw [text]
    simp [readUnits, noNumber, stands, behind]
  · refine ⟨.code c.toNat, ?_, ?_⟩
    · rw [text]
      simp [readUnits, control, behind]
    · rw [joinUnits_code (Nat.lt_trans control (by decide)), Char.ofNat_toNat]
  · refine ⟨.char c, ?_, by rw [joinUnits]⟩
    rw [text]
    simp [readUnits, noEscape, noControl, behind]

end Units

/-- The pieces of a written string stand for its characters. -/
theorem readUnits_escaped (chars rest : List Char) :
    ∃ units, readUnits (chars.flatMap Json.escapedChar ++ '"' :: rest) = some (units, rest) ∧
      joinUnits units = some chars := by
  induction chars with
  | nil => exact ⟨[], by simp [readUnits], rfl⟩
  | cons c chars inductionHypothesis =>
    obtain ⟨units, behind, joined⟩ := inductionHypothesis
    obtain ⟨unit, read, stands⟩ := readUnits_escapedChar behind c
    refine ⟨unit :: units, ?_, ?_⟩
    · rw [List.flatMap_cons, List.append_assoc, read]
    · rw [stands, joined, Option.map_some]

@[simp] theorem readString_text (text : String) (rest : List Char) :
    readString (text.toList.flatMap Json.escapedChar ++ '"' :: rest) = some (some text, rest) := by
  obtain ⟨units, read, joined⟩ := readUnits_escaped text.toList rest
  rw [readString, read]
  simp [joined]

end BenchStats.JsonTree
