import BenchStats.Proofs.Text.Runs
import Mathlib.Algebra.Ring.Nat

/-!
# Joined and padded texts

Where texts are joined by a separator, each of them is found again at the place that the lengths of
those before it give, and the separator behind it.  Spaces that were trimmed from the end of a text
come back when it is padded to its old length.
-/

namespace BenchStats.Text

/-- The characters from a place on, as many as the width. -/
def slice (text : List Char) (start width : Nat) : List Char := (text.drop start).take width

theorem slice_of_append {before part after : List Char} {start width : Nat}
    (starts : before.length = start) (wide : part.length = width) :
    slice (before ++ part ++ after) start width = part := by
  rw [slice, List.append_assoc, List.drop_left' starts, List.take_left' wide]

section Joined

variable (separator : List Char)

theorem intercalate_cons_eq (part : List Char) (after : List (List Char)) :
    separator.intercalate (part :: after) = part ++ after.flatMap (separator ++ ·) := by
  induction after generalizing part with
  | nil => simp
  | cons next rest inductionHypothesis =>
    rw [List.intercalate_cons_cons, inductionHypothesis, List.flatMap_cons, List.append_assoc,
      List.append_assoc]

theorem mem_intercalate {separator : List Char} {parts : List (List Char)} {c : Char}
    (member : c ∈ separator.intercalate parts) : c ∈ separator ∨ ∃ part ∈ parts, c ∈ part := by
  cases parts with
  | nil => simp at member
  | cons part after =>
    rw [intercalate_cons_eq, List.mem_append, List.mem_flatMap] at member
    rcases member with inPart | ⟨other, inAfter, member⟩
    · exact Or.inr ⟨part, List.mem_cons_self, inPart⟩
    · exact (List.mem_append.1 member).imp_right fun inOther =>
        ⟨other, List.mem_cons_of_mem _ inAfter, inOther⟩

theorem intercalate_append_cons (before : List (List Char)) (part : List Char)
    (after : List (List Char)) :
    separator.intercalate (before ++ part :: after) =
      before.flatMap (· ++ separator) ++ part ++ after.flatMap (separator ++ ·) := by
  induction before with
  | nil => exact intercalate_cons_eq separator part after
  | cons first rest inductionHypothesis =>
    obtain ⟨next, others, joined⟩ := List.exists_cons_of_ne_nil
      (List.append_ne_nil_of_right_ne_nil rest (List.cons_ne_nil part after))
    rw [List.cons_append, joined, List.intercalate_cons_cons, ← joined, inductionHypothesis,
      List.flatMap_cons]
    simp only [List.append_assoc]

theorem length_flatMap_separated (parts : List (List Char)) :
    (parts.flatMap (· ++ separator)).length =
      (parts.map List.length).sum + separator.length * parts.length := by
  induction parts with
  | nil => rfl
  | cons part rest inductionHypothesis =>
    rw [List.flatMap_cons, List.length_append, List.length_append, inductionHypothesis,
      List.map_cons, List.sum_cons, List.length_cons, Nat.mul_succ]
    omega

@[simp] theorem length_intercalate (parts : List (List Char)) :
    (separator.intercalate parts).length =
      (parts.map List.length).sum + separator.length * (parts.length - 1) := by
  cases parts using List.reverseRecOn with
  | nil => rfl
  | append_singleton before part =>
    rw [intercalate_append_cons, List.flatMap_nil, List.append_nil, List.length_append,
      length_flatMap_separated, List.map_append, List.sum_append, List.length_append]
    simp only [List.map_cons, List.map_nil, List.sum_cons, List.sum_nil, List.length_singleton,
      Nat.add_sub_cancel]
    omega

variable {parts : List (List Char)} {part : List Char} {j : Nat}

theorem exists_append_of_getElem? (there : parts[j]? = some part) :
    ∃ before after, parts = before ++ part :: after ∧ before.length = j := by
  obtain ⟨inside, rfl⟩ := List.getElem?_eq_some_iff.1 there
  refine ⟨parts.take j, parts.drop (j + 1), ?_, List.length_take_of_le inside.le⟩
  rw [List.getElem_cons_drop, List.take_append_drop]

theorem length_before (before : List (List Char)) (part : List Char) (after : List (List Char)) :
    (before.flatMap (· ++ separator)).length =
      (((before ++ part :: after).map List.length).take before.length).sum +
        separator.length * before.length := by
  rw [length_flatMap_separated, List.map_append, List.take_left' (List.length_map List.length)]

theorem slice_intercalate (there : parts[j]? = some part) :
    slice (separator.intercalate parts)
      (((parts.map List.length).take j).sum + separator.length * j) part.length = part := by
  obtain ⟨before, after, rfl, rfl⟩ := exists_append_of_getElem? there
  rw [intercalate_append_cons]
  exact slice_of_append (length_before separator before part after) rfl

theorem slice_intercalate_separator (there : parts[j]? = some part)
    (goesOn : j + 1 < parts.length) :
    slice (separator.intercalate parts)
      (((parts.map List.length).take j).sum + separator.length * j + part.length)
        separator.length = separator := by
  obtain ⟨before, after, rfl, rfl⟩ := exists_append_of_getElem? there
  cases after with
  | nil => simp at goesOn
  | cons next others =>
    rw [intercalate_append_cons, List.flatMap_cons, List.append_assoc separator,
      ← List.append_assoc]
    refine slice_of_append ?_ rfl
    rw [List.length_append, length_before separator before part (next :: others)]

end Joined

/-- What is trimmed from a text without other blanks than spaces is filled up again. -/
theorem rightpad_trimEnd {text : List Char}
    (onlySpaces : ∀ c ∈ text, isBlank c = true → c = ' ') :
    (trimEnd text).rightpad text.length ' ' = text := by
  have cut : trimEnd text ++ text.rtakeWhile isBlank = text := List.rdropWhile_append_rtakeWhile
  have spaces : text.rtakeWhile isBlank =
      List.replicate (text.rtakeWhile isBlank).length ' ' := by
    refine List.eq_replicate_of_mem fun c member => ?_
    have inText : c ∈ text := (List.rtakeWhile_suffix isBlank text).mem member
    exact onlySpaces c inText (List.mem_rtakeWhile_imp member)
  have lengths := congrArg List.length cut
  rw [List.length_append] at lengths
  rw [List.rightpad, ← lengths, Nat.add_sub_cancel_left, ← spaces, cut]

end BenchStats.Text
