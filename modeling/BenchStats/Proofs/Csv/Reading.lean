import BenchStats.Table.Csv
import Mathlib.Data.List.Induction

/-!
# Comma-separated text read by the parity of its quotes

A position of a text is quoted when an odd number of double quotes stands before it.  The records
of a text are then found without running a reader: the text is cut at the line ends that are not
quoted, what is left between them at the commas that are not quoted, and the quotes are taken out
of the pieces.  The lemmas below say how this reading changes when a character is added at the end.
-/

namespace BenchStats.Csv

def oddQuotes (text : List Char) : Bool := text.count '"' % 2 == 1

/-- Whether a position is quoted: an odd number of double quotes stands before it. -/
def quotedAt (text : List Char) (position : Nat) : Bool := oddQuotes (text.take position)

abbrev Place := Char × Bool

def places (text : List Char) : List Place :=
  text.mapIdx fun position c => (c, quotedAt text position)

/-- The text between the line ends that are not quoted.  A carriage return before a line feed
belongs to the line end that the line feed makes. -/
def segments : List Place → List (List Place)
  | [] => [[]]
  | place :: rest =>
    if place = ('\r', false) ∧ rest.head? = some ('\n', false) then segments rest
    else if place = ('\r', false) ∨ place = ('\n', false) then [] :: segments rest
    else (segments rest).modifyHead (place :: ·)

/-- A piece of a text without its quotes, but for the first of two that stand together at a quoted
position: they are one quote of the field. -/
def content : List Place → List Char
  | [] => []
  | (c, quoted) :: rest =>
    if c ≠ '"' ∨ quoted ∧ rest.head?.map Prod.fst = some '"' then c :: content rest
    else content rest

def fieldOf (piece : List Place) : String := String.ofList (content piece)

/-- The fields of a segment, cut at the commas that are not quoted. -/
def recordOf (segment : List Place) : List String := (segment.splitOn (',', false)).map fieldOf

/-- The records of a text: one for each segment that is not empty. -/
def reading (text : List Char) : List (List String) :=
  ((segments (places text)).filter (· ≠ [])).map recordOf

/-- Pieces of two texts, put together where one text follows the other. -/
def glue {α : Type} : List (List α) → List (List α) → List (List α)
  | [], others => others
  | [last], others => others.modifyHead (last ++ ·)
  | piece :: next :: rest, others => piece :: glue (next :: rest) others

/-- A quote opens a section when it is not quoted and not the second half of a doubled quote. -/
def OpensSection (text : List Char) (position : Nat) : Prop :=
  text[position]? = some '"' ∧ quotedAt text position = false ∧
    ¬ (0 < position ∧ text[position - 1]? = some '"' ∧ quotedAt text (position - 1))

/-- The number of the line on which a text ends: line ends that are not quoted count, and so do
quoted line feeds. -/
def lineAt (text : List Char) : Nat :=
  (segments (places text)).length + (places text).count ('\n', true)

/-- Every carriage return stands before a line feed. -/
def PairedReturns (text : List Char) : Prop :=
  ∀ position, text[position]? = some '\r' → text[position + 1]? = some '\n'

@[simp] theorem oddQuotes_concat (text : List Char) (c : Char) :
    oddQuotes (text ++ [c]) = (oddQuotes text ^^ c == '"') := by
  unfold oddQuotes
  by_cases quote : c = '"'
  · subst quote
    rcases Nat.mod_two_eq_zero_or_one (text.count '"') with even | odd
    · simp [Nat.add_mod, even]
    · simp [Nat.add_mod, odd]
  · simp [List.count_append, List.count_singleton, beq_false_of_ne quote]

theorem quotedAt_append {text : List Char} {position : Nat} (within : position ≤ text.length)
    (more : List Char) : quotedAt (text ++ more) position = quotedAt text position := by
  rw [quotedAt, List.take_append_of_le_length within, quotedAt]

@[simp]
theorem quotedAt_length (text : List Char) : quotedAt text text.length = oddQuotes text := by
  rw [quotedAt, List.take_length]

@[simp] theorem places_concat (text : List Char) (c : Char) :
    places (text ++ [c]) = places text ++ [(c, oddQuotes text)] := by
  rw [places, List.mapIdx_concat, quotedAt_append (Nat.le_refl _), quotedAt_length]
  congr 1
  apply List.mapIdx_eq_mapIdx_iff.2
  intro position within
  rw [quotedAt_append (Nat.le_of_lt within)]

section Glue

variable {α : Type}

@[simp] theorem glue_concat (done more : List (List α)) (last first : List α) :
    glue (done ++ [last]) (first :: more) = done ++ (last ++ first) :: more := by
  induction done with
  | nil => rfl
  | cons piece rest inductionHypothesis =>
    cases rest with
    | nil => rfl
    | cons => simpa [glue] using inductionHypothesis

theorem glue_cons (piece : List α) {pieces : List (List α)} (nonempty : pieces ≠ [])
    (others : List (List α)) : glue (piece :: pieces) others = piece :: glue pieces others := by
  cases pieces with
  | nil => contradiction
  | cons => rfl

theorem glue_modifyHead (x : α) {pieces : List (List α)} (nonempty : pieces ≠ [])
    (others : List (List α)) :
    glue (pieces.modifyHead (x :: ·)) others = (glue pieces others).modifyHead (x :: ·) := by
  match pieces with
  | [] => contradiction
  | [last] => cases others <;> rfl
  | _ :: _ :: _ => rfl

theorem splitOn_append [BEq α] (xs ys : List α) (separator : α) :
    (xs ++ ys).splitOn separator = glue (xs.splitOn separator) (ys.splitOn separator) := by
  induction xs with
  | nil =>
    cases cut : ys.splitOn separator with
    | nil => exact absurd cut (List.splitOn_ne_nil separator ys)
    | cons => simp [glue, cut]
  | cons x rest inductionHypothesis =>
    have nonempty := List.splitOn_ne_nil separator rest
    rw [List.cons_append, List.splitOn_cons_eq_if_modifyHead, List.splitOn_cons_eq_if_modifyHead,
      inductionHypothesis]
    split
    · rw [glue_cons [] nonempty]
    · rw [glue_modifyHead x nonempty]

end Glue

@[simp] theorem segments_ne_nil (m : List Place) : segments m ≠ [] := by
  induction m with
  | nil => simp [segments]
  | cons place rest inductionHypothesis =>
    unfold segments
    split
    · exact inductionHypothesis
    · split
      · simp
      · simpa using inductionHypothesis

/-- Segments are glued where two texts meet, unless a line end is broken apart there. -/
theorem segments_append {m n : List Place}
    (apart : ¬ (m.getLast? = some ('\r', false) ∧ n.head? = some ('\n', false))) :
    segments (m ++ n) = glue (segments m) (segments n) := by
  induction m with
  | nil => cases cut : segments n <;> simp [segments, glue, cut]
  | cons place rest inductionHypothesis =>
    have nonempty := segments_ne_nil rest
    have restApart : ¬ (rest.getLast? = some ('\r', false) ∧ n.head? = some ('\n', false)) := by
      rintro ⟨last, head⟩
      exact apart ⟨by simp [List.getLast?_cons, last], head⟩
    -- Whether the first place is the return of a longer line end is seen in `rest` already.
    have sameHead : (place = ('\r', false) ∧ (rest ++ n).head? = some ('\n', false)) ↔
        (place = ('\r', false) ∧ rest.head? = some ('\n', false)) := by
      cases rest with
      | nil =>
        simp only [List.getLast?_singleton, Option.some.injEq] at apart
        simpa using apart
      | cons => simp
    rw [List.cons_append, segments, segments.eq_2 place rest, inductionHypothesis restApart]
    simp only [sameHead]
    split
    · rfl
    · split
      · rw [glue_cons [] nonempty]
      · rw [glue_modifyHead place nonempty]

theorem segments_concat_lineFeed {m : List Place} (last : m.getLast? = some ('\r', false)) :
    segments (m ++ [('\n', false)]) = segments m := by
  induction m with
  | nil => simp at last
  | cons place rest inductionHypothesis =>
    cases rest with
    | nil =>
      obtain rfl : place = ('\r', false) := by simpa using last
      simp [segments]
    | cons other others =>
      have restLast : (other :: others).getLast? = some ('\r', false) := by
        rw [List.getLast?_cons_cons] at last
        exact last
      rw [List.cons_append, segments, inductionHypothesis restLast, segments.eq_2 place]
      simp

/-- A quote adds a quote to the content exactly when it follows one at a quoted position. -/
theorem content_concat (piece : List Place) (c : Char) (quoted : Bool) :
    content (piece ++ [(c, quoted)]) =
      content piece ++
        if c ≠ '"' ∨ piece.getLast? = some ('"', true) then [c] else [] := by
  induction piece with
  | nil => simp [content]
  | cons place rest inductionHypothesis =>
    obtain ⟨d, within⟩ := place
    cases rest with
    | nil =>
      by_cases quote : c = '"' <;> by_cases first : d = '"' <;> cases within <;>
        simp [content, quote, first]
    | cons other others =>
      rw [List.cons_append, content, inductionHypothesis, content.eq_2 d, List.getLast?_cons_cons]
      by_cases kept : d ≠ '"' ∨ within = true ∧ (other :: others).head?.map Prod.fst = some '"'
      · rw [if_pos kept, if_pos (by simpa using kept), List.cons_append]
      · rw [if_neg kept, if_neg (by simpa using kept)]

@[simp] theorem getElem?_places (text : List Char) (position : Nat) :
    (places text)[position]? = text[position]?.map fun c => (c, quotedAt text position) := by
  rw [places, List.getElem?_mapIdx]

theorem quotedAt_succ {text : List Char} {position : Nat} {c : Char}
    (found : text[position]? = some c) :
    quotedAt text (position + 1) = (quotedAt text position ^^ c == '"') := by
  simp [quotedAt, List.take_add_one, found]

/-- Where a carriage return only stands before a line feed, line feeds make the segments. -/
theorem length_segments {m : List Place}
    (paired : ∀ position, m[position]? = some ('\r', false) →
      m[position + 1]? = some ('\n', false)) :
    (segments m).length = 1 + m.count ('\n', false) := by
  induction m with
  | nil => rfl
  | cons place rest inductionHypothesis =>
    have restLength := inductionHypothesis fun position found => by
      simpa using paired (position + 1) (by simpa using found)
    rw [segments]
    split
    next longEnd => rw [restLength, longEnd.1, List.count_cons_of_ne (by decide)]
    next alone =>
      split
      next lineEnd =>
        rcases lineEnd with rfl | rfl
        · exact absurd ⟨rfl, by simpa [List.head?_eq_getElem?] using paired 0 rfl⟩ alone
        · rw [List.length_cons, restLength, List.count_cons_self]
          omega
      next other =>
        have notLineFeed : place ≠ ('\n', false) := fun same => other (Or.inr same)
        rw [List.length_modifyHead, restLength, List.count_cons_of_ne notLineFeed]

theorem count_places (text : List Char) (c : Char) :
    (places text).count (c, false) + (places text).count (c, true) = text.count c := by
  induction text using List.reverseRecOn with
  | nil => rfl
  | append_singleton text d inductionHypothesis =>
    rw [places_concat]
    by_cases same : d = c
    · subst same
      cases oddQuotes text <;> simp [List.count_append] <;> omega
    · simp [List.count_append, same, inductionHypothesis]

theorem lineAt_eq {text : List Char} (paired : PairedReturns text) :
    lineAt text = 1 + text.count '\n' := by
  have placesPaired : ∀ position, (places text)[position]? = some ('\r', false) →
      (places text)[position + 1]? = some ('\n', false) := by
    intro position found
    simp only [getElem?_places, Option.map_eq_some_iff, Prod.mk.injEq] at found ⊢
    obtain ⟨c, foundHere, rfl, unquoted⟩ := found
    refine ⟨'\n', paired position foundHere, rfl, ?_⟩
    rw [quotedAt_succ foundHere, unquoted]
    rfl
  rw [lineAt, length_segments placesPaired, ← count_places text '\n']
  omega

end BenchStats.Csv
