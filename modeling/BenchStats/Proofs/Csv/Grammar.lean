import BenchStats.Proofs.Csv.Reading

/-!
# The grammar of comma-separated text

The reader passes over a text once and looks at no character twice.  What it has collected is
nevertheless the reading of the text by the parity of its quotes: the invariant ties its lists to
the cuts of the text so far, its mode to the parity and the last character, and its line to the
quote that opened the current section.
-/

namespace BenchStats.Csv

/-- The cuts of a text: segments that are done and the current one, and in it the pieces that are
done and the current one. -/
structure CutInto (m : List Place) (done : List (List Place)) (segment : List Place)
    (closed : List (List Place)) (piece : List Place) : Prop where
  segments_eq : segments m = done ++ [segment]
  pieces_eq : segment.splitOn (',', false) = closed ++ [piece]
  last_quote : piece.getLast? = some ('"', true) ↔ m.getLast? = some ('"', true)

namespace CutInto

variable {m : List Place} {done : List (List Place)} {segment : List Place}
  {closed : List (List Place)} {piece : List Place}

theorem nil : CutInto [] [] [] [] [] := ⟨rfl, rfl, Iff.rfl⟩

theorem concat (cut : CutInto m done segment closed piece) {place : Place}
    (notComma : place ≠ (',', false)) (notReturn : place ≠ ('\r', false))
    (notLineFeed : place ≠ ('\n', false)) :
    CutInto (m ++ [place]) done (segment ++ [place]) closed (piece ++ [place]) where
  segments_eq := by
    have alone : segments [place] = [[place]] := by simp [segments, notReturn, notLineFeed]
    rw [segments_append (by simp [notLineFeed]), alone, cut.segments_eq, glue_concat]
  pieces_eq := by
    have alone : [place].splitOn (',', false) = [[place]] :=
      List.splitOn_eq_singleton (by simpa using Ne.symm notComma)
    simp [splitOn_append, alone, cut.pieces_eq]
  last_quote := by simp

theorem comma (cut : CutInto m done segment closed piece) :
    CutInto (m ++ [(',', false)]) done (segment ++ [(',', false)]) (closed ++ [piece]) [] where
  segments_eq := by
    have alone : segments [(',', false)] = [[(',', false)]] := by simp [segments]
    rw [segments_append (by simp), alone, cut.segments_eq, glue_concat]
  pieces_eq := by
    rw [List.splitOn_append_cons_self, cut.pieces_eq]
    rfl
  last_quote := by simp

theorem lineEnd (cut : CutInto m done segment closed piece) {place : Place}
    (ends : place = ('\r', false) ∨ place = ('\n', false))
    (apart : ¬ (m.getLast? = some ('\r', false) ∧ place = ('\n', false))) :
    CutInto (m ++ [place]) (done ++ [segment]) [] [] [] where
  segments_eq := by
    have alone : segments [place] = [[], []] := by simp [segments, ends]
    rw [segments_append (by simpa using apart), alone, cut.segments_eq, glue_concat]
    simp
  pieces_eq := rfl
  last_quote := by rcases ends with rfl | rfl <;> simp

theorem lineFeed (cut : CutInto m done segment closed piece)
    (last : m.getLast? = some ('\r', false)) :
    CutInto (m ++ [('\n', false)]) done segment closed piece where
  segments_eq := by rw [segments_concat_lineFeed last, cut.segments_eq]
  pieces_eq := cut.pieces_eq
  last_quote := by
    rw [cut.last_quote, last]
    simp

end CutInto

/-- The last section that a text opens starts on a line. -/
def OpenedOn (text : List Char) (line : Nat) : Prop :=
  ∃ position, OpensSection text position ∧
    (∀ later, OpensSection text later → later ≤ position) ∧
    line = lineAt (text.take position)

theorem OpensSection.lt_length {text : List Char} {position : Nat}
    (opens : OpensSection text position) : position < text.length :=
  (List.getElem?_eq_some_iff.1 opens.1).1

theorem opensSection_append_iff {text : List Char} {position : Nat}
    (within : position < text.length) (more : List Char) :
    OpensSection (text ++ more) position ↔ OpensSection text position := by
  unfold OpensSection
  rw [List.getElem?_append_left within, List.getElem?_append_left (by omega),
    quotedAt_append (by omega), quotedAt_append (by omega)]

theorem opensSection_length_iff (text : List Char) (c : Char) :
    OpensSection (text ++ [c]) text.length ↔
      c = '"' ∧ oddQuotes text = false ∧ (places text).getLast? ≠ some ('"', true) := by
  unfold OpensSection
  rw [quotedAt_append (Nat.le_refl _), quotedAt_length]
  induction text using List.reverseRecOn with
  | nil => simp [places]
  | append_singleton text d _ =>
    rw [places_concat]
    have before : (text ++ [d] ++ [c])[(text ++ [d]).length - 1]? = some d := by simp
    have quotedBefore : quotedAt (text ++ [d] ++ [c]) ((text ++ [d]).length - 1) =
        oddQuotes text := by
      rw [List.append_assoc, List.length_append, List.length_singleton, Nat.add_sub_cancel,
        quotedAt_append (Nat.le_refl _), quotedAt_length]
    rw [before, quotedBefore]
    simp

theorem OpenedOn.concat {text : List Char} {line : Nat} (opened : OpenedOn text line) {c : Char}
    (none : ¬ OpensSection (text ++ [c]) text.length) : OpenedOn (text ++ [c]) line := by
  obtain ⟨position, opens, latest, line_eq⟩ := opened
  have within := opens.lt_length
  refine ⟨position, (opensSection_append_iff within [c]).2 opens, ?_, ?_⟩
  · intro later laterOpens
    have bound := laterOpens.lt_length
    rw [List.length_append, List.length_singleton] at bound
    rcases Nat.lt_succ_iff_lt_or_eq.1 bound with inside | rfl
    · exact latest later ((opensSection_append_iff inside [c]).1 laterOpens)
    · exact absurd laterOpens none
  · rw [List.take_append_of_le_length (Nat.le_of_lt within), line_eq]

theorem openedOn_concat {text : List Char} {c : Char}
    (opens : OpensSection (text ++ [c]) text.length) :
    OpenedOn (text ++ [c]) (lineAt text) := by
  refine ⟨text.length, opens, ?_, ?_⟩
  · intro later laterOpens
    have bound := laterOpens.lt_length
    rw [List.length_append, List.length_singleton] at bound
    omega
  · rw [List.take_left']
    rfl

/-- What the mode says about the text read so far. -/
def Mode.Fits (text : List Char) (started : Bool) : Mode → Prop
  | .plain => oddQuotes text = false ∧ (places text).getLast? ≠ some ('\r', false) ∧
      (places text).getLast? ≠ some ('"', true)
  | .afterReturn => oddQuotes text = false ∧ (places text).getLast? = some ('\r', false)
  | .quoted start => oddQuotes text = true ∧ (places text).getLast? ≠ some ('"', true) ∧
      started = true ∧ OpenedOn text start
  | .afterQuote start => oddQuotes text = false ∧ (places text).getLast? = some ('"', true) ∧
      started = true ∧ OpenedOn text start

namespace Mode

variable {text : List Char}

theorem plain_fits (even : oddQuotes text = false) {c : Char} (notQuote : c ≠ '"')
    (notReturn : c ≠ '\r') (started : Bool) : plain.Fits (text ++ [c]) started := by
  simp [Fits, even, notQuote, notReturn]

theorem afterReturn_fits (even : oddQuotes text = false) (started : Bool) :
    afterReturn.Fits (text ++ ['\r']) started := by
  simp [Fits, even]

theorem afterQuote_fits (odd : oddQuotes text = true) {start : Nat}
    (opened : OpenedOn (text ++ ['"']) start) : (afterQuote start).Fits (text ++ ['"']) true := by
  simp [Fits, odd, opened]

theorem quoted_fits {c : Char} (change : oddQuotes text = !decide (c = '"')) {start : Nat}
    (opened : OpenedOn (text ++ [c]) start) : (quoted start).Fits (text ++ [c]) true := by
  rw [Fits, oddQuotes_concat, places_concat, change]
  refine ⟨?_, ?_, rfl, opened⟩ <;> by_cases quote : c = '"' <;> simp [quote]

end Mode

/-- What a reader has collected from a text, in terms of the cuts of the text. -/
structure Reader.Tracks (r : Reader) (text : List Char) (done : List (List Place))
    (segment : List Place) (closed : List (List Place)) (piece : List Place) : Prop where
  cut : CutInto (places text) done segment closed piece
  records : r.records.reverse = (done.filter (· ≠ [])).map recordOf
  fields : r.fields.reverse = closed.map fieldOf
  field : r.field.reverse = content piece
  started : r.started = decide (segment ≠ [])
  line : r.line = done.length + 1 + (places text).count ('\n', true)
  mode : r.mode.Fits text r.started

namespace Reader.Tracks

variable {r : Reader} {text : List Char} {done : List (List Place)} {segment : List Place}
  {closed : List (List Place)} {piece : List Place}

theorem initial : Reader.initial.Tracks [] [] [] [] [] where
  cut := .nil
  records := rfl
  fields := rfl
  field := rfl
  started := rfl
  line := rfl
  mode := by simp [Reader.initial, Mode.Fits, oddQuotes, places]

theorem line_eq (tracks : r.Tracks text done segment closed piece) : r.line = lineAt text := by
  rw [tracks.line, lineAt, tracks.cut.segments_eq, List.length_append, List.length_singleton]

theorem record_eq (tracks : r.Tracks text done segment closed piece) :
    r.endField.fields.reverse = recordOf segment := by
  rw [recordOf, tracks.cut.pieces_eq, List.map_append, ← tracks.fields, List.map_singleton,
    fieldOf, ← tracks.field]
  simp [endField]

theorem endRecord_records (tracks : r.Tracks text done segment closed piece) :
    r.endRecord.records.reverse = ((done ++ [segment]).filter (· ≠ [])).map recordOf := by
  have record := tracks.record_eq
  by_cases empty : segment = []
  · simp [endRecord, tracks.started, tracks.records, empty]
  · rw [endRecord, if_pos (by simp [tracks.started, empty])]
    simp [tracks.records, record, empty]

theorem endRecord_rest (tracks : r.Tracks text done segment closed piece) :
    r.endRecord.fields = [] ∧ r.endRecord.field = [] ∧ r.endRecord.started = false := by
  by_cases empty : segment = []
  · subst empty
    have pieces := tracks.cut.pieces_eq
    rw [List.splitOn_nil] at pieces
    obtain ⟨rfl, rfl⟩ : closed = [] ∧ piece = [] := by cases closed <;> simp_all
    have fields := tracks.fields
    have field := tracks.field
    simp_all [endRecord, tracks.started, content]
  · rw [endRecord, if_pos (by simp [tracks.started, empty])]
    exact ⟨rfl, rfl, rfl⟩

theorem push_field (tracks : r.Tracks text done segment closed piece) {c : Char}
    (notQuote : c ≠ '"') (quoted : Bool) :
    (c :: r.field).reverse = content (piece ++ [(c, quoted)]) := by
  rw [content_concat, if_pos (Or.inl notQuote), List.reverse_cons, tracks.field]

theorem quote_field (tracks : r.Tracks text done segment closed piece)
    (single : (places text).getLast? ≠ some ('"', true)) (quoted : Bool) :
    r.field.reverse = content (piece ++ [('"', quoted)]) := by
  have pieceSingle : piece.getLast? ≠ some ('"', true) := fun last =>
    single (tracks.cut.last_quote.1 last)
  rw [content_concat, if_neg (by simp [pieceSingle]), List.append_nil, tracks.field]

theorem doubledQuote_field (tracks : r.Tracks text done segment closed piece)
    (doubled : (places text).getLast? = some ('"', true)) (quoted : Bool) :
    ('"' :: r.field).reverse = content (piece ++ [('"', quoted)]) := by
  have pieceDoubled : piece.getLast? = some ('"', true) := tracks.cut.last_quote.2 doubled
  rw [content_concat, if_pos (Or.inr pieceDoubled), List.reverse_cons, tracks.field]

theorem grow (tracks : r.Tracks text done segment closed piece) (c : Char) (mode : Mode)
    {field : List Char} (inside : oddQuotes text = true ∨ c ≠ ',' ∧ c ≠ '\r' ∧ c ≠ '\n')
    (fits : mode.Fits (text ++ [c]) true)
    (field_eq : field.reverse = content (piece ++ [(c, oddQuotes text)])) :
    Tracks ⟨mode, r.records, r.fields, field,
        if c = '\n' then r.line + 1 else r.line, true⟩ (text ++ [c]) done
      (segment ++ [(c, oddQuotes text)]) closed (piece ++ [(c, oddQuotes text)]) where
  cut := by
    rw [places_concat]
    rcases inside with quoted | ⟨comma, carriageReturn, lineFeed⟩
    · exact tracks.cut.concat (by simp [quoted]) (by simp [quoted]) (by simp [quoted])
    · exact tracks.cut.concat (by simp [comma]) (by simp [carriageReturn]) (by simp [lineFeed])
  records := tracks.records
  fields := tracks.fields
  field := field_eq
  started := by simp
  line := by
    rw [places_concat, List.count_append, tracks.line]
    by_cases lineFeed : c = '\n'
    · have quoted : oddQuotes text = true := by simpa [lineFeed] using inside
      simp [lineFeed, quoted, Nat.add_assoc]
    · simp [lineFeed]
  mode := fits

theorem comma (tracks : r.Tracks text done segment closed piece)
    (even : oddQuotes text = false) :
    Tracks { r.endField with mode := .plain, started := true } (text ++ [',']) done
      (segment ++ [(',', false)]) (closed ++ [piece]) [] where
  cut := by
    rw [places_concat, even]
    exact tracks.cut.comma
  records := tracks.records
  fields := by
    rw [List.map_append, ← tracks.fields, List.map_singleton, fieldOf, ← tracks.field]
    simp [endField]
  field := rfl
  started := by simp
  line := by
    rw [places_concat, List.count_append]
    simpa [endField] using tracks.line
  mode := Mode.plain_fits even (by decide) (by decide) true

theorem lineEnd (tracks : r.Tracks text done segment closed piece)
    (even : oddQuotes text = false) {c : Char} (ends : c = '\r' ∨ c = '\n')
    (apart : ¬ ((places text).getLast? = some ('\r', false) ∧ c = '\n')) {mode : Mode}
    (fits : mode.Fits (text ++ [c]) false) :
    Tracks { r.endRecord with mode := mode, line := r.line + 1 } (text ++ [c])
      (done ++ [segment]) [] [] [] where
  cut := by
    rw [places_concat, even]
    exact tracks.cut.lineEnd (by simpa using ends) (by simpa using apart)
  records := tracks.endRecord_records
  fields := by simp [tracks.endRecord_rest]
  field := by simp [tracks.endRecord_rest, content]
  started := by simp [tracks.endRecord_rest]
  line := by
    rw [places_concat, List.count_append, even, tracks.line]
    simp [Nat.add_right_comm]
  mode := by simpa [tracks.endRecord_rest] using fits

/-- The line feed of a line end that a carriage return has begun. -/
theorem lineFeed (tracks : r.Tracks text done segment closed piece)
    (even : oddQuotes text = false) (last : (places text).getLast? = some ('\r', false)) :
    Tracks { r with mode := .plain } (text ++ ['\n']) done segment closed piece where
  cut := by
    rw [places_concat, even]
    exact tracks.cut.lineFeed last
  records := tracks.records
  fields := tracks.fields
  field := tracks.field
  started := tracks.started
  line := by
    rw [places_concat, List.count_append, even]
    simpa using tracks.line
  mode := Mode.plain_fits even (by decide) (by decide) r.started

theorem plainStep (tracks : r.Tracks text done segment closed piece)
    (even : oddQuotes text = false) {c : Char}
    (apart : ¬ ((places text).getLast? = some ('\r', false) ∧ c = '\n'))
    (single : ¬ ((places text).getLast? = some ('"', true) ∧ c = '"')) :
    ∃ done' segment' closed' piece',
      (r.plainStep c).Tracks (text ++ [c]) done' segment' closed' piece' := by
  unfold Reader.plainStep
  split
  next quote =>
    subst quote
    have notDoubled : (places text).getLast? ≠ some ('"', true) := fun last => single ⟨last, rfl⟩
    have opens : OpensSection (text ++ ['"']) text.length :=
      (opensSection_length_iff text '"').2 ⟨rfl, even, notDoubled⟩
    have opened := openedOn_concat opens
    rw [← tracks.line_eq] at opened
    exact ⟨_, _, _, _, tracks.grow '"' (.quoted r.line) (Or.inr (by decide))
      (Mode.quoted_fits even opened) (tracks.quote_field notDoubled _)⟩
  next notQuote =>
    split
    next comma =>
      subst comma
      exact ⟨_, _, _, _, tracks.comma even⟩
    next notComma =>
      split
      next lineFeed =>
        subst lineFeed
        exact ⟨_, _, _, _, tracks.lineEnd even (Or.inr rfl) apart
          (Mode.plain_fits even (by decide) (by decide) false)⟩
      next notLineFeed =>
        split
        next carriageReturn =>
          subst carriageReturn
          exact ⟨_, _, _, _, tracks.lineEnd even (Or.inl rfl) apart
            (Mode.afterReturn_fits even false)⟩
        next notReturn =>
          have grown := tracks.grow c .plain (Or.inr ⟨notComma, notReturn, notLineFeed⟩)
            (Mode.plain_fits even notQuote notReturn true) (tracks.push_field notQuote _)
          rw [if_neg notLineFeed] at grown
          exact ⟨_, _, _, _, grown⟩

theorem step (tracks : r.Tracks text done segment closed piece) (c : Char) :
    ∃ done' segment' closed' piece',
      (r.step c).Tracks (text ++ [c]) done' segment' closed' piece' := by
  have fits := tracks.mode
  unfold Reader.step
  split
  next plain =>
    rw [plain] at fits
    obtain ⟨even, notReturn, notQuote⟩ := fits
    exact tracks.plainStep even (fun both => notReturn both.1) (fun both => notQuote both.1)
  next afterReturn =>
    rw [afterReturn] at fits
    obtain ⟨even, last⟩ := fits
    split
    next lineFeed =>
      subst lineFeed
      exact ⟨_, _, _, _, tracks.lineFeed even last⟩
    next notLineFeed =>
      refine tracks.plainStep even (fun both => notLineFeed both.2) ?_
      rw [last]
      simp
  next start quoted =>
    rw [quoted] at fits
    obtain ⟨odd, notQuote, started, opened⟩ := fits
    have stillOpened := opened.concat (c := c) (by simp [opensSection_length_iff, odd])
    split
    next quote =>
      subst quote
      have grown := tracks.grow '"' (.afterQuote start) (Or.inl odd)
        (Mode.afterQuote_fits odd stillOpened) (tracks.quote_field notQuote _)
      rw [if_neg (by decide), ← started] at grown
      exact ⟨_, _, _, _, grown⟩
    next other =>
      have change : oddQuotes text = !decide (c = '"') := by simp [odd, other]
      have grown := tracks.grow c (.quoted start) (Or.inl odd)
        (Mode.quoted_fits change stillOpened) (tracks.push_field other _)
      rw [← started, ← quoted] at grown
      exact ⟨_, _, _, _, grown⟩
  next start afterQuote =>
    rw [afterQuote] at fits
    obtain ⟨even, last, started, opened⟩ := fits
    split
    next quote =>
      subst quote
      have stillOpened := opened.concat (c := '"') (by simp [opensSection_length_iff, last])
      have grown := tracks.grow '"' (.quoted start) (Or.inr (by decide))
        (Mode.quoted_fits even stillOpened) (tracks.doubledQuote_field last _)
      rw [if_neg (by decide), ← started] at grown
      exact ⟨_, _, _, _, grown⟩
    next other =>
      refine tracks.plainStep even ?_ (fun both => other both.2)
      rw [last]
      simp

/-- The reader tracks every text that it has read. -/
theorem run (text : List Char) :
    ∃ done segment closed piece,
      (text.foldl Reader.step Reader.initial).Tracks text done segment closed piece := by
  induction text using List.reverseRecOn with
  | nil => exact ⟨_, _, _, _, initial⟩
  | append_singleton text c inductionHypothesis =>
    obtain ⟨done, segment, closed, piece, tracks⟩ := inductionHypothesis
    rw [List.foldl_append]
    exact tracks.step c

end Reader.Tracks

/-- An even number of quotes makes a text readable: its records are its reading. -/
theorem records_of_even {text : List Char} (even : oddQuotes text = false) :
    records text = .ok (reading text) := by
  obtain ⟨done, segment, closed, piece, tracks⟩ := Reader.Tracks.run text
  have fits := tracks.mode
  rw [reading, tracks.cut.segments_eq, ← tracks.endRecord_records, records, Reader.finish]
  split
  next start quoted =>
    rw [quoted] at fits
    rw [fits.1] at even
    contradiction
  next => rfl

/-- An odd number of quotes leaves the last section open. -/
theorem records_of_odd {text : List Char} (odd : oddQuotes text = true) :
    ∃ line, records text = .error (.unterminatedQuote line) ∧ OpenedOn text line := by
  obtain ⟨done, segment, closed, piece, tracks⟩ := Reader.Tracks.run text
  have fits := tracks.mode
  rw [records, Reader.finish]
  split
  next start quoted =>
    rw [quoted] at fits
    exact ⟨start, rfl, fits.2.2.2⟩
  next notQuoted =>
    exfalso
    cases mode : (text.foldl Reader.step Reader.initial).mode with
    | quoted start => exact notQuoted start mode
    | plain | afterReturn | afterQuote =>
      rw [mode] at fits
      rw [fits.1] at odd
      contradiction

end BenchStats.Csv

namespace BenchStats.Table

open Csv

@[simp] theorem ofRecords?_cons (header : List String) (rows : List (List String)) :
    ofRecords? (header :: rows) =
      (fitRows header.length 1 rows).map fun rows => ⟨header, rows⟩ := by
  rw [ofRecords?]
  cases fitRows header.length 1 rows <;> rfl

@[simp]
theorem fitRows_ne_unterminatedQuote (width row : Nat) (rows : List (List String)) (line : Nat) :
    fitRows width row rows ≠ .error (.unterminatedQuote line) := by
  induction rows generalizing row with
  | nil => simp [fitRows]
  | cons record rest inductionHypothesis =>
    have restReadable := inductionHypothesis (row + 1)
    rw [fitRows]
    split
    · simp
    · cases others : fitRows width (row + 1) rest with
      | ok =>
        intro same
        cases same
      | error e =>
        intro same
        cases same
        exact restReadable others

@[simp] theorem ofRecords?_ne_unterminatedQuote (records : List (List String)) (line : Nat) :
    ofRecords? records ≠ .error (.unterminatedQuote line) := by
  cases records with
  | nil => nofun
  | cons header rows =>
    rw [ofRecords?_cons]
    cases fitted : fitRows header.length 1 rows with
    | ok =>
      intro same
      cases same
    | error e =>
      intro same
      cases same
      exact fitRows_ne_unterminatedQuote _ _ _ _ fitted

theorem ofCsv?_of_even {text : String} (even : oddQuotes text.toList = false) :
    ofCsv? text = ofRecords? (reading text.toList) := by
  rw [ofCsv?, records_of_even even]
  rfl

theorem ofCsv?_of_odd {text : String} (odd : oddQuotes text.toList = true) :
    ∃ line, ofCsv? text = .error (.unterminatedQuote line) ∧ OpenedOn text.toList line := by
  obtain ⟨line, unterminated, opened⟩ := records_of_odd odd
  refine ⟨line, ?_, opened⟩
  rw [ofCsv?, unterminated]
  rfl

theorem pairedReturns_take {text : List Char} (paired : PairedReturns text) {position : Nat}
    (opens : OpensSection text position) : PairedReturns (text.take position) := by
  intro place found
  have within := (List.getElem?_eq_some_iff.1 found).1
  rw [List.length_take] at within
  rw [List.getElem?_take_of_lt (by omega)] at found
  have lineFeed := paired place found
  have notLast : place + 1 ≠ position := by
    rintro rfl
    rw [opens.1] at lineFeed
    simp at lineFeed
  rw [List.getElem?_take_of_lt (by omega)]
  exact lineFeed

/-- The reader accepts exactly the texts with an even number of quotes, and what it makes of them
is their reading: the first record is the header, shorter rows are filled up with empty cells, and
the first wider row is refused.  Of the other texts it reports the line on which the section starts
that is never closed. -/
theorem ofCsv?_eq_reading (text : String) :
    ((∃ line, ofCsv? text = .error (.unterminatedQuote line)) ↔ oddQuotes text.toList = true) ∧
    (oddQuotes text.toList = true → ∃ position,
      OpensSection text.toList position ∧
      (∀ later, OpensSection text.toList later → later ≤ position) ∧
      ofCsv? text = .error (.unterminatedQuote (lineAt (text.toList.take position))) ∧
      (PairedReturns text.toList →
        lineAt (text.toList.take position) = 1 + (text.toList.take position).count '\n')) ∧
    (oddQuotes text.toList = false →
      (reading text.toList = [] → ofCsv? text = .error .missingHeader) ∧
      ∀ header rows, reading text.toList = header :: rows →
        ((∀ row ∈ rows, row.length ≤ header.length) →
          ofCsv? text = .ok ⟨header, rows.map fun row =>
            row ++ List.replicate (header.length - row.length) ""⟩) ∧
        ∀ before wide after, rows = before ++ wide :: after →
          (∀ row ∈ before, row.length ≤ header.length) → header.length < wide.length →
          ofCsv? text = .error (.raggedRow (before.length + 1) header.length wide.length)) := by
  refine ⟨⟨?_, ?_⟩, ?_, ?_⟩
  · rintro ⟨line, unterminated⟩
    rw [← Bool.not_eq_false]
    intro even
    rw [ofCsv?_of_even even] at unterminated
    exact ofRecords?_ne_unterminatedQuote _ line unterminated
  · intro odd
    obtain ⟨line, unterminated, -⟩ := ofCsv?_of_odd odd
    exact ⟨line, unterminated⟩
  · intro odd
    obtain ⟨line, unterminated, position, opens, latest, rfl⟩ := ofCsv?_of_odd odd
    exact ⟨position, opens, latest, unterminated, fun paired =>
      lineAt_eq (pairedReturns_take paired opens)⟩
  · intro even
    rw [ofCsv?_of_even even]
    refine ⟨fun none => by rw [none]; rfl, ?_⟩
    intro header rows cut
    rw [cut, ofRecords?_cons]
    refine ⟨fun fits => by rw [fitRows_of_le fits]; rfl, ?_⟩
    rintro before wide after rfl fits tooWide
    rw [fitRows_of_lt fits tooWide, Nat.add_comm]
    rfl

/-- Quotes in mid-field, a line end of each kind, a blank line and a section over two lines. -/
theorem ofCsv?_mixed_quotes :
    oddQuotes "k,\"v\",w\r\n\n1,a\"b\"\"\n\"\r,2,x".toList = false ∧
    ofCsv? "k,\"v\",w\r\n\n1,a\"b\"\"\n\"\r,2,x" =
      .ok ⟨["k", "v", "w"], [["1", "ab\"\n", ""], ["", "2", "x"]]⟩ := by
  have even : oddQuotes "k,\"v\",w\r\n\n1,a\"b\"\"\n\"\r,2,x".toList = false := by decide
  have cut : reading "k,\"v\",w\r\n\n1,a\"b\"\"\n\"\r,2,x".toList =
      [["k", "v", "w"], ["1", "ab\"\n"], ["", "2", "x"]] := by decide
  refine ⟨even, ?_⟩
  rw [(((ofCsv?_eq_reading _).2.2 even).2 _ _ cut).1 (by decide)]
  rfl

end BenchStats.Table
