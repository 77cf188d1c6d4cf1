import BenchStats.Files.Documents
import BenchStats.Proofs.Text.Joined

/-!
# Paths that ask for JSON

The text of a path shows which form it asks for: JSON where its last name has the extension `json`
in any case of the letters.  Slashes behind that name, and single dots between them, count for
nothing, and a name that starts with its only dot has no extension.
-/

namespace BenchStats

/-- A path ends in a name with the extension `json`, whatever slashes and single dots follow it. -/
def AsksForJson (path : String) : Prop :=
  ∃ (stem extension : List Char) (last : Char) (idle : List (List Char)),
    path.toList = stem ++ last :: '.' :: extension ++ idle.flatMap ('/' :: ·) ∧ last ≠ '/' ∧
      extension.map Char.toLower = "json".toList ∧ ∀ piece ∈ idle, piece = [] ∨ piece = ['.']

namespace Path

@[simp]
theorem isIdle_iff {piece : List Char} : isIdle piece = true ↔ piece = [] ∨ piece = ['.'] := by
  simp [isIdle]

theorem isName_of_length {piece : List Char} (long : 2 < piece.length) : isName piece = true := by
  rw [isName, Bool.and_eq_true, Bool.not_eq_true', decide_eq_true_eq, Bool.eq_false_iff, Ne,
    isIdle_iff]
  refine ⟨?_, ?_⟩
  · rintro (rfl | rfl)
    · exact absurd long (by decide)
    · exact absurd long (by decide)
  · rintro rfl
    exact absurd long (by decide)

theorem not_mem_of_mem_splitOn {separator : Char} {text piece : List Char}
    (member : piece ∈ text.splitOn separator) : separator ∉ piece := by
  induction text generalizing piece with
  | nil => simp_all
  | cons c rest inductionHypothesis =>
    obtain ⟨first, others, cut⟩ := List.exists_cons_of_ne_nil (List.splitOn_ne_nil separator rest)
    rw [List.splitOn_cons_eq_if_modifyHead, cut] at member
    rw [cut] at inductionHypothesis
    split at member
    · rcases List.mem_cons.1 member with rfl | member
      · exact List.not_mem_nil
      · exact inductionHypothesis member
    next different =>
      rcases List.mem_cons.1 member with rfl | member
      · have solid := inductionHypothesis List.mem_cons_self
        rw [List.mem_cons, not_or]
        exact ⟨fun same => different (beq_iff_eq.2 same.symm), solid⟩
      · exact inductionHypothesis (List.mem_cons_of_mem first member)

theorem exists_splitOn_append (separator : Char) (stem : List Char) : ∃ front rest, ∀ name,
    separator ∉ name → (stem ++ name).splitOn separator = front ++ [rest ++ name] := by
  induction stem with
  | nil => exact ⟨[], [], fun name solid => List.splitOn_eq_singleton solid⟩
  | cons c others inductionHypothesis =>
    obtain ⟨front, rest, splits⟩ := inductionHypothesis
    by_cases same : c = separator
    · refine ⟨[] :: front, rest, fun name solid => ?_⟩
      rw [List.cons_append, List.splitOn_cons_eq_if_modifyHead, if_pos (by simpa using same),
        splits name solid]
      rfl
    · cases front with
      | nil =>
        refine ⟨[], c :: rest, fun name solid => ?_⟩
        rw [List.cons_append, List.splitOn_cons_eq_if_modifyHead, if_neg (by simpa using same),
          splits name solid]
        rfl
      | cons first between =>
        refine ⟨(c :: first) :: between, rest, fun name solid => ?_⟩
        rw [List.cons_append, List.splitOn_cons_eq_if_modifyHead, if_neg (by simpa using same),
          splits name solid]
        rfl

theorem splitOn_append_flatMap {separator : Char} {parts : List (List Char)}
    (solid : ∀ part ∈ parts, separator ∉ part) (text : List Char) :
    (text ++ parts.flatMap (separator :: ·)).splitOn separator =
      text.splitOn separator ++ parts := by
  induction parts generalizing text with
  | nil => simp
  | cons part rest inductionHypothesis =>
    rw [List.forall_mem_cons] at solid
    rw [List.flatMap_cons, ← List.append_assoc, inductionHypothesis solid.2,
      List.splitOn_append_cons_self, List.splitOn_eq_singleton solid.1, List.append_assoc]
    rfl

theorem fileName?_of_pieces {path : String} {front idle : List (List Char)} {name : List Char}
    (cut : pieces path = front ++ name :: idle) (named : isName name = true)
    (passed : ∀ piece ∈ idle, isIdle piece = true) : fileName? path = some name := by
  rw [isName, Bool.and_eq_true, Bool.not_eq_true', decide_eq_true_eq] at named
  have trimmed : trimIdle (pieces path) = front ++ [name] := by
    rw [cut, trimIdle, List.reverse_append, List.reverse_cons, List.append_assoc,
      List.dropWhile_append_of_pos (by simpa using passed)]
    simp [named.1]
  simp [fileName?, trimmed, named.2]

theorem exists_of_fileName? {path : String} {name : List Char}
    (found : fileName? path = some name) :
    ∃ front idle, pieces path = front ++ name :: idle ∧ ∀ piece ∈ idle, isIdle piece = true := by
  have last : (trimIdle (pieces path)).getLast? = some name := by
    unfold fileName? at found
    split at found
    next last =>
      split at found
      next => cases found
      next =>
        cases found
        exact last
    next => cases found
  obtain ⟨front, trimmed⟩ := List.getLast?_eq_some_iff.1 last
  refine ⟨front, ((pieces path).reverse.takeWhile isIdle).reverse, ?_, ?_⟩
  · calc
      pieces path = ((pieces path).reverse.takeWhile isIdle ++
          (pieces path).reverse.dropWhile isIdle).reverse := by
        rw [List.takeWhile_append_dropWhile, List.reverse_reverse]
      _ = trimIdle (pieces path) ++ ((pieces path).reverse.takeWhile isIdle).reverse :=
        List.reverse_append
      _ = _ := by rw [trimmed, List.append_assoc, List.singleton_append]
  · intro piece member
    exact List.mem_takeWhile_imp (List.mem_reverse.1 member)

theorem extensionOf?_append {stem extension : List Char} (last : Char)
    (dotless : '.' ∉ extension) :
    extensionOf? (stem ++ last :: '.' :: extension) = some extension := by
  have passed : ∀ c ∈ extension.reverse, (c ≠ '.' : Bool) = true := by
    intro c member
    rw [decide_eq_true_eq]
    rintro rfl
    exact dotless (List.mem_reverse.1 member)
  have backwards : (stem ++ last :: '.' :: extension).reverse =
      extension.reverse ++ '.' :: last :: stem.reverse := by simp
  rw [extensionOf?, backwards, List.dropWhile_append_of_pos passed,
    List.takeWhile_append_of_pos passed]
  simp

theorem exists_of_extensionOf? {name extension : List Char}
    (found : extensionOf? name = some extension) :
    ∃ stem last, name = stem ++ last :: '.' :: extension := by
  unfold extensionOf? at found
  split at found
  next dot last stem dropped =>
    cases found
    have isDot := List.head?_dropWhile_not (· ≠ '.') name.reverse
    rw [dropped] at isDot
    obtain rfl : dot = '.' := by simpa using isDot
    refine ⟨stem.reverse, last, ?_⟩
    calc
      name = (name.reverse.takeWhile (· ≠ '.') ++ name.reverse.dropWhile (· ≠ '.')).reverse := by
        rw [List.takeWhile_append_dropWhile, List.reverse_reverse]
      _ = _ := by
        rw [dropped]
        simp
  next => cases found

end Path

theorem not_mem_of_lower {extension : List Char} (json : extension.map Char.toLower = "json".toList)
    {c : Char} (mark : c = '.' ∨ c = '/') : c ∉ extension := by
  intro member
  have lowered := List.mem_map_of_mem (f := Char.toLower) member
  rw [json] at lowered
  rcases mark with rfl | rfl
  · exact absurd lowered (by decide)
  · exact absurd lowered (by decide)

theorem AsksForJson.extension? {path : String} (asks : AsksForJson path) : ∃ extension,
    Path.extension? path = some extension ∧ extension.map Char.toLower = "json".toList := by
  obtain ⟨stem, extension, last, idle, reads, solid, json, passed⟩ := asks
  refine ⟨extension, ?_, json⟩
  have named : '/' ∉ last :: '.' :: extension := by
    simp [solid.symm, not_mem_of_lower json (Or.inr rfl)]
  have idleSolid : ∀ piece ∈ idle, '/' ∉ piece := by
    intro piece member
    rcases passed piece member with rfl | rfl
    · decide
    · decide
  obtain ⟨front, rest, splits⟩ := Path.exists_splitOn_append '/' stem
  have cut : Path.pieces path = front ++ (rest ++ last :: '.' :: extension) :: idle := by
    rw [Path.pieces, reads, Path.splitOn_append_flatMap idleSolid, splits _ named,
      List.append_assoc, List.singleton_append]
  have letters := congrArg List.length json
  rw [List.length_map] at letters
  have isName : Path.isName (rest ++ last :: '.' :: extension) = true := by
    apply Path.isName_of_length
    simp [letters]
  rw [Path.extension?, Path.fileName?_of_pieces cut isName fun piece member =>
    Path.isIdle_iff.2 (passed piece member)]
  exact Path.extensionOf?_append last (not_mem_of_lower json (Or.inl rfl))

theorem AsksForJson.of_extension? {path : String} {extension : List Char}
    (found : Path.extension? path = some extension)
    (json : extension.map Char.toLower = "json".toList) : AsksForJson path := by
  obtain ⟨name, named, found⟩ := Option.bind_eq_some_iff.1 found
  obtain ⟨stem, last, rfl⟩ := Path.exists_of_extensionOf? found
  obtain ⟨front, idle, cut, passed⟩ := Path.exists_of_fileName? named
  have solid : '/' ∉ stem ++ last :: '.' :: extension := by
    have member : stem ++ last :: '.' :: extension ∈ Path.pieces path := by simp [cut]
    exact Path.not_mem_of_mem_splitOn member
  have reads : path.toList = front.flatMap (· ++ ['/']) ++ (stem ++ last :: '.' :: extension) ++
      idle.flatMap (['/'] ++ ·) := by
    rw [← Text.intercalate_append_cons, ← cut]
    exact (List.intercalate_splitOn '/').symm
  refine ⟨front.flatMap (· ++ ['/']) ++ stem, extension, last, idle, ?_, ?_, json,
    fun piece member => Path.isIdle_iff.1 (passed piece member)⟩
  · simpa using reads
  · rintro rfl
    simp at solid

/-- The form that is found is the one that the text of the path shows. -/
theorem TableFormat.ofPath_eq_json_iff {path : String} :
    ofPath path = .json ↔ AsksForJson path := by
  unfold ofPath
  split
  next found =>
    obtain ⟨extension, found, json⟩ := Option.map_eq_some_iff.1 found
    exact iff_of_true rfl (.of_extension? found json)
  next other =>
    refine iff_of_false (by decide) fun asks => other ?_
    obtain ⟨extension, found, json⟩ := asks.extension?
    rw [found, Option.map_some, json]

end BenchStats
