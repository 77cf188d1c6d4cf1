import BenchStats.Proofs.Text.Joined
import BenchStats.Table.Aligned
import Mathlib.Algebra.Ring.Nat
import Mathlib.Data.List.Forall2
import Mathlib.Order.Bounds.Basic

/-!
# Aligned columns

Every line of a table's text has its cells at the same places: a column starts where the widths of
the columns before it and two spaces behind each of them end.  Only the spaces at the end of a line
are left out.
-/

namespace BenchStats.Table

/-- The numbers of characters in the cells of a column. -/
def cellLengths (rows : List (List String)) (j : Nat) : Set Nat :=
  {n | ∃ cells ∈ rows, ∃ cell, cells[j]? = some cell ∧ cell.length = n}

/-- Where a column starts: after those before it, with two spaces behind each of them. -/
def columnStart (widths : List Nat) (j : Nat) : Nat := (widths.take j).sum + 2 * j

/-- The number of characters in a line with all its columns and two spaces between them. -/
def lineWidth (widths : List Nat) : Nat := widths.sum + 2 * (widths.length - 1)

/-- A line shows cells in columns of the given widths: filled up with the spaces that are left out
at its end, it has each cell at the right of its column and two spaces between the columns. -/
structure LinesUp (widths : List Nat) (cells : List String) (line : List Char) : Prop where
  oneLine : '\n' ∉ line
  trimmed : line.getLast? ≠ some ' '
  fits : line.length ≤ lineWidth widths
  cell : ∀ j width cell, widths[j]? = some width → cells[j]? = some cell →
    Text.slice (line.rightpad (lineWidth widths) ' ') (columnStart widths j) width =
      cell.toList.leftpad width ' '
  between : ∀ j width, widths[j]? = some width → j + 1 < widths.length →
    Text.slice (line.rightpad (lineWidth widths) ' ') (columnStart widths j + width) 2 = [' ', ' ']

/-- A text shows a table with a line for the header and one for each row, in which every column is
as wide as its widest cell. -/
def LinedUp (t : Table) (text : String) : Prop :=
  ∃ (widths : List Nat) (lines : List (List Char)),
    widths.length = t.headers.length ∧
    (∀ j width, widths[j]? = some width →
      IsGreatest (cellLengths (t.headers :: t.rows) j) width) ∧
    text.toList = lines.flatMap (· ++ ['\n']) ∧
    List.Forall₂ (LinesUp widths) (t.headers :: t.rows) lines

/-- The cells of a line hold no blank characters but spaces. -/
def OnlySpaces (cells : List String) : Prop :=
  ∀ cell ∈ cells, ∀ c ∈ cell.toList, Text.isBlank c = true → c = ' '

-- There are finitely many characters, but only those of the cells are to be gone through.
instance (cells : List String) : Decidable (OnlySpaces cells) :=
  let spaced (cell : String) : Decidable (∀ c ∈ cell.toList, Text.isBlank c = true → c = ' ') :=
    List.decidableBAll _ _
  @List.decidableBAll _ _ spaced cells

/-- No cell is wider than its column. -/
abbrev Fit (widths : List Nat) (cells : List String) : Prop :=
  List.Forall₂ (fun width cell => cell.length ≤ width) widths cells

section Widths

variable {headers : List String} {rows : List (List String)} {row : List String}

theorem widths_concat (rows : List (List String)) (row : List String)
    (fits : row.length = (widths ⟨headers, rows⟩).length) :
    widths ⟨headers, rows ++ [row]⟩ =
      List.zipWith max (widths ⟨headers, rows⟩) (row.map String.length) := by
  have shown : widths ⟨headers, rows ++ [row]⟩ = List.zipWith max (widths ⟨headers, rows⟩)
      (row.map String.length ++
        List.replicate ((widths ⟨headers, rows⟩).length - row.length) 0) :=
    List.foldl_concat _ _ row rows
  rw [shown, fits, Nat.sub_self, List.replicate_zero, List.append_nil]

@[simp] theorem length_widths {t : Table} (rectangular : t.Rectangular) :
    t.widths.length = t.headers.length := by
  obtain ⟨headers, rows⟩ := t
  induction rows using List.reverseRecOn with
  | nil => exact List.length_map String.length
  | append_singleton rows row inductionHypothesis =>
    have before := inductionHypothesis fun other member =>
      rectangular other (List.mem_append_left [row] member)
    have fits : row.length = headers.length := rectangular row (by simp)
    rw [widths_concat rows row (fits.trans before.symm), List.length_zipWith, List.length_map,
      before, fits]
    exact Nat.min_self headers.length

theorem cellLengths_concat {cell : String} {j : Nat} (there : row[j]? = some cell) :
    cellLengths (headers :: (rows ++ [row])) j =
      insert cell.length (cellLengths (headers :: rows) j) := by
  ext n
  simp only [cellLengths, Set.mem_ofPred_eq, Set.mem_insert_iff, ← List.cons_append,
    List.mem_append, List.mem_singleton]
  constructor
  · rintro ⟨cells, earlier | rfl, other, found, rfl⟩
    · exact Or.inr ⟨cells, earlier, other, found, rfl⟩
    · cases there.symm.trans found
      exact Or.inl rfl
  · rintro (rfl | ⟨cells, earlier, other, found, rfl⟩)
    · exact ⟨row, Or.inr rfl, cell, there, rfl⟩
    · exact ⟨cells, Or.inl earlier, other, found, rfl⟩

@[simp] theorem cellLengths_headers {name : String} {j : Nat} (there : headers[j]? = some name) :
    cellLengths [headers] j = {name.length} := by
  ext n
  simp [cellLengths, there, eq_comm]

/-- A column is as wide as the widest of its cells and its header. -/
theorem isGreatest_width {t : Table} (rectangular : t.Rectangular) {j width : Nat}
    (there : t.widths[j]? = some width) :
    IsGreatest (cellLengths (t.headers :: t.rows) j) width := by
  obtain ⟨headers, rows⟩ := t
  -- The widths grow row by row from the first one on, so the last row is taken off.
  induction rows using List.reverseRecOn generalizing width with
  | nil =>
    have named : (headers.map String.length)[j]? = some width := there
    rw [List.getElem?_map] at named
    obtain ⟨name, found, rfl⟩ := Option.map_eq_some_iff.1 named
    rw [cellLengths_headers found]
    exact isGreatest_singleton
  | append_singleton rows row inductionHypothesis =>
    have rectangularBefore : (⟨headers, rows⟩ : Table).Rectangular := fun other member =>
      rectangular other (List.mem_append_left [row] member)
    have fits : row.length = (widths ⟨headers, rows⟩).length :=
      (rectangular row (by simp)).trans (length_widths rectangularBefore).symm
    rw [widths_concat rows row fits] at there
    obtain ⟨before, length, widthBefore, found, rfl⟩ := List.getElem?_zipWith_eq_some.1 there
    rw [List.getElem?_map] at found
    obtain ⟨cell, inRow, rfl⟩ := Option.map_eq_some_iff.1 found
    rw [cellLengths_concat inRow, max_comm]
    exact (inductionHypothesis rectangularBefore widthBefore).insert cell.length

end Widths

section Lines

variable {widths : List Nat} {cells : List String}

/-- A line before the spaces at its end are left out. -/
def joinedCells (widths : List Nat) (cells : List String) : List Char :=
  [' ', ' '].intercalate (List.zipWith alignRight widths cells)

theorem alignRight_eq (width : Nat) (cell : String) :
    alignRight width cell = cell.toList.leftpad width ' ' := by
  rw [alignRight, List.leftpad, String.length_toList]

theorem onlySpaces_joinedCells (spaced : OnlySpaces cells) :
    ∀ c ∈ joinedCells widths cells, Text.isBlank c = true → c = ' ' := by
  intro c member blank
  rcases Text.mem_intercalate member with space | ⟨part, inParts, inPart⟩
  · simpa using space
  obtain ⟨j, there⟩ := List.mem_iff_getElem?.1 inParts
  obtain ⟨width, cell, -, inCells, rfl⟩ := List.getElem?_zipWith_eq_some.1 there
  rcases List.mem_append.1 inPart with padding | inCell
  · exact (List.mem_replicate.1 padding).2
  · exact spaced cell (List.mem_of_getElem? inCells) c inCell blank

variable (fit : Fit widths cells)

include fit

@[simp] theorem map_length_alignRight :
    (List.zipWith alignRight widths cells).map List.length = widths := by
  induction fit with
  | nil => rfl
  | cons fits _ inductionHypothesis =>
    rw [List.zipWith_cons_cons, List.map_cons, inductionHypothesis, alignRight_eq,
      List.length_leftpad, String.length_toList, Nat.max_eq_left fits]

theorem length_joinedCells : (joinedCells widths cells).length = lineWidth widths := by
  have lengths := map_length_alignRight fit
  have count := congrArg List.length lengths
  rw [List.length_map] at count
  rw [joinedCells, Text.length_intercalate, lengths, count]
  rfl

section Columns

variable {j width : Nat} (column : widths[j]? = some width)

include column

theorem exists_part : ∃ part, (List.zipWith alignRight widths cells)[j]? = some part ∧
    part.length = width := by
  have lengths := congrArg (·[j]?) (map_length_alignRight fit)
  rw [List.getElem?_map, column] at lengths
  exact Option.map_eq_some_iff.1 lengths

theorem slice_joinedCells {cell : String} (inCells : cells[j]? = some cell) :
    Text.slice (joinedCells widths cells) (columnStart widths j) width =
      cell.toList.leftpad width ' ' := by
  obtain ⟨part, there, wide⟩ := exists_part fit column
  obtain ⟨width', cell', column', inCells', rfl⟩ := List.getElem?_zipWith_eq_some.1 there
  cases column.symm.trans column'
  cases inCells.symm.trans inCells'
  have found := Text.slice_intercalate [' ', ' '] there
  rw [map_length_alignRight fit, wide, alignRight_eq] at found
  exact found

theorem slice_behind_column (goesOn : j + 1 < widths.length) :
    Text.slice (joinedCells widths cells) (columnStart widths j + width) 2 = [' ', ' '] := by
  obtain ⟨part, there, wide⟩ := exists_part fit column
  have count := congrArg List.length (map_length_alignRight fit)
  rw [List.length_map] at count
  have found := Text.slice_intercalate_separator [' ', ' '] there (count ▸ goesOn)
  rw [map_length_alignRight fit, wide] at found
  exact found

end Columns

/-- A line shows each cell in its column. -/
theorem linesUp_alignedLine (spaced : OnlySpaces cells) :
    ∃ line, alignedLine widths cells = line ++ ['\n'] ∧ LinesUp widths cells line := by
  have onlySpaces : ∀ c ∈ joinedCells widths cells, Text.isBlank c = true → c = ' ' :=
    onlySpaces_joinedCells spaced
  have solid := Text.endsSolid_trimEnd (joinedCells widths cells)
  have padded : (Text.trimEnd (joinedCells widths cells)).rightpad (lineWidth widths) ' ' =
      joinedCells widths cells := by
    rw [← length_joinedCells fit]
    exact Text.rightpad_trimEnd onlySpaces
  have shorter : (Text.trimEnd (joinedCells widths cells)).Sublist (joinedCells widths cells) :=
    (List.rdropWhile_prefix Text.isBlank _).sublist
  refine ⟨Text.trimEnd (joinedCells widths cells), rfl,
    ⟨?oneLine, ?trimmed, ?fits, ?cell, ?between⟩⟩
  case oneLine =>
    intro member
    exact absurd (onlySpaces '\n' (shorter.subset member) (by decide)) (by decide)
  case trimmed =>
    intro last
    exact absurd (solid ' ' last) (by decide)
  case fits => exact shorter.length_le.trans (length_joinedCells fit).le
  case cell =>
    intro j width cell column inCells
    rw [padded]
    exact slice_joinedCells fit column inCells
  case between =>
    intro j width column goesOn
    rw [padded]
    exact slice_behind_column fit column goesOn

end Lines

/-- The text of a table lines its columns up. -/
theorem aligned_lines_up {t : Table} (rectangular : t.Rectangular)
    (spaced : ∀ cells ∈ t.headers :: t.rows, OnlySpaces cells) : LinedUp t t.aligned := by
  have fit : ∀ cells ∈ t.headers :: t.rows, Fit t.widths cells := by
    intro cells member
    have fits : t.widths.length = cells.length := by
      rw [length_widths rectangular]
      rcases List.mem_cons.1 member with rfl | inRows
      · rfl
      · exact (rectangular cells inRows).symm
    refine List.forall₂_iff_get.2 ⟨fits, fun j column inCells => ?_⟩
    have widest := isGreatest_width rectangular (List.getElem?_eq_getElem column)
    exact widest.2 ⟨cells, member, _, List.getElem?_eq_getElem inCells, rfl⟩
  have lines : ∀ cells ∈ t.headers :: t.rows, ∃ line,
      alignedLine t.widths cells = line ++ ['\n'] ∧ LinesUp t.widths cells line :=
    fun cells member => linesUp_alignedLine (fit cells member) (spaced cells member)
  choose! line shown linesUp using lines
  refine ⟨t.widths, (t.headers :: t.rows).map line, length_widths rectangular,
    fun j width => isGreatest_width rectangular, ?_, ?_⟩
  · rw [aligned, String.toList_ofList, List.flatMap_map]
    exact List.flatMap_congr shown
  · rw [List.forall₂_map_right_iff, List.forall₂_same]
    exact linesUp

/-- The last cells of both rows end in spaces, which are left out of their lines. -/
theorem aligned_lines_up_open_end :
    LinedUp ⟨["thread", "é", "note"], [["0", "", "  "], ["10", "x y", "ok "]]⟩
      "thread    é  note\n     0\n    10  x y   ok\n" := by
  exact aligned_lines_up
    (t := ⟨["thread", "é", "note"], [["0", "", "  "], ["10", "x y", "ok "]]⟩) (by decide)
    (by decide +kernel)

end BenchStats.Table
