/-!
# Lines

A line feed ends a line, and a carriage return before it belongs to the end. What follows the last
line feed is a line of its own unless it is empty.
-/

namespace BenchStats.Text

/-- A line without the carriage return that belongs to its end. -/
def dropCarriageReturn (line : List Char) : List Char :=
  if line.getLast? = some '\r' then line.dropLast else line

/-- The lines of a text; `current` holds the characters before it on its first line, last one
first. -/
def linesFrom (current : List Char) : List Char → List (List Char)
  | [] => if current.isEmpty then [] else [current.reverse]
  | c :: rest =>
    if c = '\n' then dropCarriageReturn current.reverse :: linesFrom [] rest
    else linesFrom (c :: current) rest

/-- The lines of a text, without their ends. -/
def lines (text : List Char) : List (List Char) := linesFrom [] text

@[simp] theorem dropCarriageReturn_concat (line : List Char) :
    dropCarriageReturn (line ++ ['\r']) = line := by
  simp [dropCarriageReturn]

theorem linesFrom_append {line : List Char} (noLineFeed : '\n' ∉ line)
    (current rest : List Char) :
    linesFrom current (line ++ rest) = linesFrom (line.reverse ++ current) rest := by
  induction line generalizing current with
  | nil => rfl
  | cons c others inductionHypothesis =>
    simp only [List.mem_cons, not_or] at noLineFeed
    rw [List.cons_append, linesFrom, if_neg (Ne.symm noLineFeed.1),
      inductionHypothesis noLineFeed.2]
    simp

theorem lines_of_not_mem {line : List Char} (noLineFeed : '\n' ∉ line) :
    lines line = if line.isEmpty then [] else [line] := by
  have read := linesFrom_append noLineFeed [] []
  rw [List.append_nil, List.append_nil] at read
  rw [lines, read, linesFrom]
  simp

theorem lines_append_lineFeed {line : List Char} (noLineFeed : '\n' ∉ line) (rest : List Char) :
    lines (line ++ '\n' :: rest) = dropCarriageReturn line :: lines rest := by
  rw [lines, linesFrom_append noLineFeed, linesFrom, if_pos rfl]
  simp [lines]

theorem linesFrom_append_lineFeed (current before rest : List Char) :
    linesFrom current (before ++ '\n' :: rest) =
      linesFrom current (before ++ ['\n']) ++ lines rest := by
  induction before generalizing current with
  | nil => rfl
  | cons c others inductionHypothesis =>
    by_cases isLineFeed : c = '\n'
    · simp only [List.cons_append, linesFrom, if_pos isLineFeed, inductionHypothesis]
    · simp only [List.cons_append, linesFrom, if_neg isLineFeed, inductionHypothesis]

theorem length_linesFrom_lineFeed (current before : List Char) :
    (linesFrom current (before ++ ['\n'])).length = before.count '\n' + 1 := by
  induction before generalizing current with
  | nil => rfl
  | cons c others inductionHypothesis =>
    by_cases isLineFeed : c = '\n'
    · rw [List.cons_append, linesFrom, if_pos isLineFeed, List.length_cons, inductionHypothesis,
        isLineFeed, List.count_cons_self]
    · rw [List.cons_append, linesFrom, if_neg isLineFeed, inductionHypothesis,
        List.count_cons_of_ne isLineFeed]

/-- Whether the last line of a text, if there is one, has its end. -/
def Closed (text : List Char) : Prop := text = [] ∨ ∃ before, text = before ++ ['\n']

theorem Closed.lines_append {text : List Char} (closed : Closed text) (rest : List Char) :
    lines (text ++ rest) = lines text ++ lines rest := by
  rcases closed with rfl | ⟨before, rfl⟩
  · rfl
  · rw [List.append_assoc, List.singleton_append, lines, linesFrom_append_lineFeed]
    rfl

theorem Closed.length_lines {text : List Char} (closed : Closed text) :
    (lines text).length = text.count '\n' := by
  rcases closed with rfl | ⟨before, rfl⟩
  · rfl
  · rw [lines, length_linesFrom_lineFeed, List.count_append, List.count_singleton_self]

end BenchStats.Text
