import BenchStats.Proofs.Text.Runs

/-!
# Texts with single spaces

Where a text falls into pieces at its spaces and none of these is empty, no two spaces stand next to
each other and none stands at an end.
-/

namespace BenchStats.Text

theorem head?_of_pieces {separator : Char} {text : List Char}
    (filled : [] ∉ text.splitOn separator) : ∃ c, text.head? = some c ∧ c ≠ separator := by
  cases text with
  | nil => simp at filled
  | cons c rest =>
    refine ⟨c, rfl, ?_⟩
    rintro rfl
    simp [List.splitOn_cons_eq_if_modifyHead] at filled

theorem getLast?_of_pieces {separator : Char} {text : List Char}
    (filled : [] ∉ text.splitOn separator) : ∃ c, text.getLast? = some c ∧ c ≠ separator := by
  cases text using List.reverseRecOn with
  | nil => simp at filled
  | append_singleton before c =>
    refine ⟨c, List.getLast?_concat, ?_⟩
    rintro rfl
    simp [List.splitOn_append_cons_self] at filled

/-- Every blank character is a space between two characters that are not blank. -/
def SingleSpaced (text : List Char) : Prop :=
  ∀ before c after, text = before ++ c :: after → isBlank c = true →
    c = ' ' ∧ (∃ left, before.getLast? = some left ∧ isBlank left = false) ∧
      ∃ right, after.head? = some right ∧ isBlank right = false

theorem singleSpaced_of_pieces {text : List Char} (filled : [] ∉ text.splitOn ' ')
    (onlySpaces : ∀ c ∈ text, isBlank c = true → c = ' ') : SingleSpaced text := by
  rintro before c after rfl blank
  cases onlySpaces c (by simp) blank
  rw [List.splitOn_append_cons_self, List.mem_append, not_or] at filled
  obtain ⟨left, last, leftSpaceless⟩ := getLast?_of_pieces filled.1
  obtain ⟨right, first, rightSpaceless⟩ := head?_of_pieces filled.2
  have leftMember : left ∈ before ++ ' ' :: after := by
    simp [List.mem_of_getLast? last]
  have rightMember : right ∈ before ++ ' ' :: after := by
    simp [List.mem_of_head? first]
  refine ⟨rfl, ⟨left, last, ?_⟩, right, first, ?_⟩
  · exact Bool.eq_false_iff.2 fun leftBlank => leftSpaceless (onlySpaces left leftMember leftBlank)
  · exact Bool.eq_false_iff.2 fun rightBlank =>
      rightSpaceless (onlySpaces right rightMember rightBlank)

end BenchStats.Text
