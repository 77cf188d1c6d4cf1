import BenchStats.Text.Blank
import BenchStats.Text.Lines
import Mathlib.Data.List.DropRight

/-!
# Runs of characters between blanks

Trimming a text and collapsing its blanks leaves the runs of characters that are not blank, in
order, with one space between them.  Splitting at the space gives them back.
-/

namespace BenchStats.Text

/-- The longest runs of characters that are not blank, in order. -/
def runs (text : List Char) : List (List Char) := (text.splitOnP isBlank).filter (· ≠ [])

@[simp] theorem runs_nil : runs [] = [] := rfl

@[simp] theorem runs_append_blank {c : Char} (blank : isBlank c = true) (text rest : List Char) :
    runs (text ++ c :: rest) = runs text ++ runs rest := by
  rw [runs, List.splitOnP_append_cons text rest blank, List.filter_append, runs, runs]

@[simp] theorem runs_cons_blank {c : Char} (blank : isBlank c = true) (text : List Char) :
    runs (c :: text) = runs text :=
  runs_append_blank blank [] text

@[simp] theorem runs_blanks_append {gap : List Char} (blanks : ∀ c ∈ gap, isBlank c = true)
    (text : List Char) : runs (gap ++ text) = runs text := by
  induction gap with
  | nil => rfl
  | cons c rest inductionHypothesis =>
    rw [List.cons_append, runs_cons_blank (blanks c List.mem_cons_self)]
    exact inductionHypothesis fun d member => blanks d (List.mem_cons_of_mem _ member)

@[simp] theorem runs_append_blanks {gap : List Char} (blanks : ∀ c ∈ gap, isBlank c = true)
    (text : List Char) : runs (text ++ gap) = runs text := by
  cases gap with
  | nil => rw [List.append_nil]
  | cons c rest =>
    have restBlank : ∀ d ∈ rest, isBlank d = true := fun d member =>
      blanks d (List.mem_cons_of_mem _ member)
    rw [runs_append_blank (blanks c List.mem_cons_self), ← List.append_nil rest,
      runs_blanks_append restBlank, runs_nil, List.append_nil]

@[simp] theorem runs_of_blanks {gap : List Char} (blanks : ∀ c ∈ gap, isBlank c = true) :
    runs gap = [] := by
  rw [← List.append_nil gap, runs_blanks_append blanks, runs_nil]

@[simp] theorem runs_of_solid {word : List Char} (nonempty : word ≠ [])
    (solid : ∀ c ∈ word, isBlank c = false) : runs word = [word] := by
  rw [runs, List.splitOnP_eq_singleton solid]
  simp [nonempty]

theorem runs_word_gap {word gap : List Char} (nonempty : word ≠ [])
    (solid : ∀ c ∈ word, isBlank c = false) (apart : gap ≠ [])
    (blanks : ∀ c ∈ gap, isBlank c = true) (rest : List Char) :
    runs (word ++ gap ++ rest) = word :: runs rest := by
  cases gap with
  | nil => contradiction
  | cons c others =>
    have othersBlank : ∀ d ∈ others, isBlank d = true := fun d member =>
      blanks d (List.mem_cons_of_mem _ member)
    rw [List.append_assoc, List.cons_append, runs_append_blank (blanks c List.mem_cons_self),
      runs_of_solid nonempty solid, runs_blanks_append othersBlank]
    rfl

theorem runs_cons_solid {c : Char} (solid : isBlank c = false) (text : List Char) :
    runs (c :: text) =
      if text.head?.all isBlank then [c] :: runs text else (runs text).modifyHead (c :: ·) := by
  cases text with
  | nil => simpa using runs_of_solid (List.cons_ne_nil c []) (by simpa using solid)
  | cons d rest =>
    obtain ⟨piece, pieces, cut⟩ :=
      List.exists_cons_of_ne_nil (List.splitOnP_ne_nil isBlank rest)
    by_cases blank : isBlank d = true
    · rw [← List.singleton_append, runs_append_blank blank, runs_cons_blank blank,
        runs_of_solid (List.cons_ne_nil c []) (by simpa using solid)]
      simp [blank]
    · simp [runs, List.splitOnP_cons_eq_if_modifyHead, cut, solid, blank]

theorem mem_runs {text run : List Char} (member : run ∈ runs text) :
    run ≠ [] ∧ ∀ c ∈ run, isBlank c = false := by
  induction text generalizing run with
  | nil => simp at member
  | cons c rest inductionHypothesis =>
    by_cases blank : isBlank c = true
    · rw [runs_cons_blank blank] at member
      exact inductionHypothesis member
    · rw [Bool.not_eq_true] at blank
      rw [runs_cons_solid blank] at member
      split at member
      · rcases List.mem_cons.1 member with rfl | member
        · simpa using blank
        · exact inductionHypothesis member
      · cases cut : runs rest with
        | nil => simp [cut] at member
        | cons first others =>
          rw [cut, List.modifyHead_cons] at member
          rcases List.mem_cons.1 member with rfl | member
          · have old := inductionHypothesis (cut ▸ List.mem_cons_self)
            refine ⟨by simp, fun d inRun => ?_⟩
            rcases List.mem_cons.1 inRun with rfl | inRun
            · exact blank
            · exact old.2 d inRun
          · exact inductionHypothesis (cut ▸ List.mem_cons_of_mem _ member)

theorem runs_eq_nil_iff {text : List Char} :
    runs text = [] ↔ ∀ c ∈ text, isBlank c = true := by
  refine ⟨fun none => ?_, runs_of_blanks⟩
  induction text with
  | nil => simp
  | cons c rest inductionHypothesis =>
    by_cases blank : isBlank c = true
    · rw [runs_cons_blank blank] at none
      simpa [blank] using inductionHypothesis none
    · rw [Bool.not_eq_true] at blank
      rw [runs_cons_solid blank] at none
      split at none
      next => cases none
      next solidNext =>
        have restBlank := inductionHypothesis (List.modifyHead_eq_nil_iff.1 none)
        cases rest with
        | nil => simp at solidNext
        | cons d others => simp [restBlank d] at solidNext

/-- The longest runs of characters that are not blank, in order: each of them ends at a blank
character or with the text. -/
inductive IsRuns : List Char → List (List Char) → Prop where
  | blanks {gap} : (∀ c ∈ gap, isBlank c = true) → IsRuns gap []
  | run {gap run rest others} : (∀ c ∈ gap, isBlank c = true) → run ≠ [] →
      (∀ c ∈ run, isBlank c = false) → rest.head?.all isBlank = true → IsRuns rest others →
      IsRuns (gap ++ run ++ rest) (run :: others)

theorem IsRuns.runs_eq {text : List Char} {found : List (List Char)} (isRuns : IsRuns text found) :
    runs text = found := by
  induction isRuns with
  | blanks gapBlank => exact runs_of_blanks gapBlank
  | @run gap run rest others gapBlank nonempty solid ends _ inductionHypothesis =>
    rw [List.append_assoc, runs_blanks_append gapBlank, ← inductionHypothesis]
    cases rest with
    | nil => simp [runs_of_solid nonempty solid]
    | cons c rest =>
      have blank : isBlank c = true := by simpa using ends
      rw [runs_append_blank blank, runs_of_solid nonempty solid, runs_cons_blank blank]
      rfl

theorem IsRuns.cons_blank {c : Char} (blank : isBlank c = true) {text : List Char}
    {found : List (List Char)} (isRuns : IsRuns text found) : IsRuns (c :: text) found := by
  cases isRuns with
  | blanks gapBlank => exact .blanks (List.forall_mem_cons.2 ⟨blank, gapBlank⟩)
  | @run gap run rest others gapBlank nonempty solid ends restRuns =>
    have longer : ∀ d ∈ c :: gap, isBlank d = true := List.forall_mem_cons.2 ⟨blank, gapBlank⟩
    exact .run longer nonempty solid ends restRuns

theorem IsRuns.cons_solid {c : Char} (solid : isBlank c = false) {text : List Char}
    {found : List (List Char)} (isRuns : IsRuns text found)
    (starts : text.head?.all isBlank = false) :
    IsRuns (c :: text) (found.modifyHead (c :: ·)) := by
  cases isRuns with
  | blanks gapBlank =>
    cases text with
    | nil => simp at starts
    | cons d others => simp [gapBlank d] at starts
  | @run gap run rest others gapBlank nonempty runSolid ends restRuns =>
    have noGap : gap = [] := by
      cases gap with
      | nil => rfl
      | cons d others => simp [gapBlank d] at starts
    subst noGap
    have longer : ∀ d ∈ c :: run, isBlank d = false :=
      List.forall_mem_cons.2 ⟨solid, runSolid⟩
    exact @IsRuns.run [] (c :: run) _ _ (by simp) (List.cons_ne_nil c run) longer ends restRuns

@[simp] theorem isRuns_runs (text : List Char) : IsRuns text (runs text) := by
  induction text with
  | nil => exact .blanks (by simp)
  | cons c rest inductionHypothesis =>
    by_cases blank : isBlank c = true
    · rw [runs_cons_blank blank]
      exact inductionHypothesis.cons_blank blank
    · rw [Bool.not_eq_true] at blank
      rw [runs_cons_solid blank]
      split
      next ends =>
        have alone : ∀ d ∈ [c], isBlank d = false := by simpa using blank
        exact @IsRuns.run [] [c] _ _ (by simp) (List.cons_ne_nil c []) alone ends
          inductionHypothesis
      next goesOn =>
        exact inductionHypothesis.cons_solid blank (Bool.eq_false_iff.2 goesOn)

theorem isRuns_iff {text : List Char} {found : List (List Char)} :
    IsRuns text found ↔ runs text = found :=
  ⟨IsRuns.runs_eq, fun same => same ▸ isRuns_runs text⟩

theorem mem_of_mem_runs {text run : List Char} (member : run ∈ runs text) {c : Char}
    (inRun : c ∈ run) : c ∈ text := by
  have isRuns := isRuns_runs text
  generalize runs text = found at isRuns member
  induction isRuns with
  | blanks => simp at member
  | @run gap first rest others _ _ _ _ _ inductionHypothesis =>
    rcases List.mem_cons.1 member with rfl | member
    · simp [inRun]
    · simp [inductionHypothesis member]

@[simp] theorem runs_dropWhile (text : List Char) : runs (text.dropWhile isBlank) = runs text := by
  induction text with
  | nil => rfl
  | cons c rest inductionHypothesis =>
    by_cases blank : isBlank c = true
    · simp [blank, inductionHypothesis]
    · rw [List.dropWhile_cons_of_neg blank]

@[simp]
theorem runs_rdropWhile (text : List Char) : runs (text.rdropWhile isBlank) = runs text := by
  induction text using List.reverseRecOn with
  | nil => rfl
  | append_singleton text c inductionHypothesis =>
    by_cases blank : isBlank c = true
    · rw [List.rdropWhile_concat_pos _ _ _ blank, inductionHypothesis,
        runs_append_blanks (by simpa using blank)]
    · rw [List.rdropWhile_concat_neg _ _ _ blank]

theorem trim_eq (text : List Char) :
    trim text = (text.dropWhile isBlank).rdropWhile isBlank := rfl

@[simp] theorem trim_of_solid {text : List Char} (solid : ∀ c ∈ text, isBlank c = false) :
    trim text = text := by
  have starts : text.dropWhile isBlank = text := by
    rw [List.dropWhile_eq_self_iff]
    intro nonempty
    rw [solid _ (List.getElem_mem nonempty)]
    exact Bool.false_ne_true
  rw [trim_eq, starts, List.rdropWhile_eq_self_iff]
  intro nonempty
  rw [solid _ (List.getLast_mem nonempty)]
  exact Bool.false_ne_true

@[simp] theorem runs_trim (text : List Char) : runs (trim text) = runs text := by
  simp [trim_eq]

/-- A text ends in a character that is not blank, or is empty. -/
def EndsSolid (text : List Char) : Prop := ∀ c ∈ text.getLast?, isBlank c = false

theorem EndsSolid.tail {c : Char} {rest : List Char} (ends : EndsSolid (c :: rest)) :
    EndsSolid rest := by
  cases rest with
  | nil => simp [EndsSolid]
  | cons d others =>
    rw [EndsSolid, List.getLast?_cons_cons] at ends
    exact ends

theorem EndsSolid.runs_ne_nil {text : List Char} (ends : EndsSolid text) (nonempty : text ≠ []) :
    runs text ≠ [] := by
  intro none
  have blank := runs_eq_nil_iff.1 none _ (List.getLast_mem nonempty)
  rw [ends _ (List.getLast?_eq_some_getLast nonempty)] at blank
  contradiction

theorem intercalate_modifyHead_cons (separator : List Char) (c : Char)
    {pieces : List (List Char)} (nonempty : pieces ≠ []) :
    separator.intercalate (pieces.modifyHead (c :: ·)) = c :: separator.intercalate pieces := by
  match pieces with
  | [] => contradiction
  | [piece] => simp
  | piece :: next :: rest => simp [List.intercalate_cons_cons]

/-- Collapsing leaves the runs with a space between them.  Blanks in front leave one more space,
unless the run of blanks has begun before. -/
theorem collapseFrom_eq {text : List Char} (ends : EndsSolid text) (afterBlank : Bool) :
    collapseFrom afterBlank text =
      (if !afterBlank && text.head?.any isBlank then [' '] else []) ++
        [' '].intercalate (runs text) := by
  induction text generalizing afterBlank with
  | nil => simp [collapseFrom]
  | cons c rest inductionHypothesis =>
    by_cases blank : isBlank c = true
    · have restCollapsed := inductionHypothesis ends.tail true
      cases afterBlank <;> simp [collapseFrom, blank, restCollapsed]
    · rw [Bool.not_eq_true] at blank
      have restCollapsed := inductionHypothesis ends.tail false
      rw [collapseFrom, if_neg (by simp [blank]), restCollapsed, runs_cons_solid blank]
      cases rest with
      | nil => simp [blank]
      | cons d others =>
        have restRuns := ends.tail.runs_ne_nil (List.cons_ne_nil d others)
        by_cases blankNext : isBlank d = true
        · rw [runs_cons_blank blankNext] at restRuns ⊢
          simp [blank, blankNext, List.intercalate_cons_of_ne_nil restRuns]
        · simp [blank, blankNext, intercalate_modifyHead_cons _ _ restRuns]

theorem trimEnd_eq (text : List Char) : trimEnd text = text.rdropWhile isBlank := rfl

@[simp] theorem endsSolid_trimEnd (text : List Char) : EndsSolid (trimEnd text) := by
  intro c last
  rw [trimEnd_eq] at last
  have nonempty : text.rdropWhile isBlank ≠ [] := by
    intro empty
    simp [empty] at last
  rw [List.getLast?_eq_some_getLast nonempty, Option.mem_some_iff] at last
  subst last
  simpa using List.rdropWhile_last_not isBlank _ nonempty

@[simp] theorem endsSolid_trim (text : List Char) : EndsSolid (trim text) :=
  endsSolid_trimEnd (text.dropWhile isBlank)

@[simp] theorem head?_trim_solid (text : List Char) : (trim text).head?.any isBlank = false := by
  cases trimmed : trim text with
  | nil => rfl
  | cons c rest =>
    obtain ⟨dropped, rejoined⟩ := List.rdropWhile_prefix isBlank (text.dropWhile isBlank)
    rw [← trim_eq, trimmed] at rejoined
    have head := List.head?_dropWhile_not isBlank text
    rw [← rejoined] at head
    simpa using head

@[simp] theorem trim_trim (text : List Char) : trim (trim text) = trim text := by
  have starts : (trim text).dropWhile isBlank = trim text := by
    rw [List.dropWhile_eq_self_iff]
    intro nonempty
    have first := head?_trim_solid text
    rw [List.head?_eq_getElem?, List.getElem?_eq_getElem nonempty, Option.any_some] at first
    exact Bool.eq_false_iff.1 first
  rw [trim_eq (trim text), starts, List.rdropWhile_eq_self_iff]
  intro nonempty
  exact Bool.eq_false_iff.1
    (endsSolid_trim text _ (List.getLast?_eq_some_getLast nonempty))

/-- A trimmed and collapsed text is its runs with one space between them. -/
@[simp] theorem collapse_trim (text : List Char) :
    collapse (trim text) = [' '].intercalate (runs text) := by
  rw [collapse, collapseFrom_eq (endsSolid_trim text), head?_trim_solid, runs_trim]
  rfl

theorem runs_intercalate {words : List (List Char)} (nonempty : ∀ word ∈ words, word ≠ [])
    (solid : ∀ word ∈ words, ∀ c ∈ word, isBlank c = false) :
    runs ([' '].intercalate words) = words := by
  induction words with
  | nil => rfl
  | cons word rest inductionHypothesis =>
    rw [List.forall_mem_cons] at nonempty solid
    have restRuns := inductionHypothesis nonempty.2 solid.2
    have space : isBlank ' ' = true := by decide
    cases rest with
    | nil => simpa using runs_of_solid nonempty.1 solid.1
    | cons next others =>
      rw [List.intercalate_cons_cons, List.append_assoc, List.singleton_append,
        runs_append_blank space, runs_of_solid nonempty.1 solid.1, restRuns]
      rfl

theorem head?_intercalate_runs (text : List Char) :
    ([' '].intercalate (runs text)).head? = (text.dropWhile isBlank).head? := by
  rw [← runs_dropWhile]
  cases dropped : text.dropWhile isBlank with
  | nil => rfl
  | cons c rest =>
    have solid := List.head?_dropWhile_not isBlank text
    rw [dropped] at solid
    rw [runs_cons_solid (by simpa using solid)]
    split
    · cases runs rest with
      | nil => rfl
      | cons first others => rfl
    next goesOn =>
      have some : runs rest ≠ [] := by
        intro none
        cases rest with
        | nil => simp at goesOn
        | cons d others => simp [runs_eq_nil_iff.1 none d] at goesOn
      rw [intercalate_modifyHead_cons _ _ some]
      rfl

/-- Split at the space, a trimmed and collapsed text gives its runs, if it has any. -/
theorem splitOn_collapse_trim {text : List Char} (nonempty : runs text ≠ []) :
    (collapse (trim text)).splitOn ' ' = runs text := by
  have spaceless : ∀ run ∈ runs text, ' ' ∉ run := by
    intro run member space
    have solid := (mem_runs member).2 ' ' space
    exact absurd solid (by decide)
  simp [List.splitOn_intercalate ' ' spaceless nonempty]

end BenchStats.Text
