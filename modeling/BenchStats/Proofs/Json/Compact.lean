import BenchStats.Proofs.Json.Number
import BenchStats.Proofs.Json.Text

/-!
# Compact texts are read as they are written

A JSON value has a tree: the same nesting, with each number as the literal that it is written as and
`null` for what has none.  The compact text of the value is read as its tree.  The induction is on
the value; twice the length of a text bounds the steps that reading it takes.
-/

namespace BenchStats

namespace Json

/-! ### Trees of values -/

def numberTree (value : Number) : JsonTree :=
  match JsonNumber.ofNumber? value with
  | some literal => .number literal
  | none => .null

mutual

def toTree : Json → JsonTree
  | .null => .null
  | .number value => numberTree value
  | .string text => .string (some text)
  | .array elements => .array (elementTrees elements)
  | .object members => .object (memberTrees members)

def elementTrees : List Json → List JsonTree
  | [] => []
  | element :: rest => element.toTree :: elementTrees rest

def memberTrees : List (String × Json) → List (Option String × JsonTree)
  | [] => []
  | (key, value) :: rest => (some key, value.toTree) :: memberTrees rest

end

@[simp] theorem elementTrees_eq_map (elements : List Json) :
    elementTrees elements = elements.map toTree := by
  induction elements with
  | nil => rfl
  | cons element rest inductionHypothesis => rw [elementTrees, inductionHypothesis, List.map_cons]

@[simp] theorem memberTrees_eq_map (members : List (String × Json)) :
    memberTrees members = members.map fun member => (some member.1, member.2.toTree) := by
  induction members with
  | nil => rfl
  | cons member rest inductionHypothesis => rw [memberTrees, inductionHypothesis, List.map_cons]

end Json

namespace JsonTree

open Json

/-! ### Single steps -/

/-- What starts a text is neither passed over nor taken for an end. -/
def Starts (text : List Char) : Prop :=
  ∃ c tail, text = c :: tail ∧ c ∉ [' ', '\n', '\t', '\r', ']', '}']

@[simp]
theorem skipBlanks_cons {c : Char} (noBlank : c ∉ [' ', '\n', '\t', '\r']) (rest : List Char) :
    skipBlanks (c :: rest) = c :: rest := by
  simp only [List.mem_cons, List.not_mem_nil, or_false, not_or] at noBlank
  simp [skipBlanks, noBlank]

theorem not_start_of_mem {c : Char}
    (member : c ∈ [' ', '\n', '\t', '\r', ']', '}', 'n', 't', 'f', '"', '[', '{']) :
    ¬ (c = '-' ∨ c.isDigit = true) := by
  have each : ∀ c ∈ [' ', '\n', '\t', '\r', ']', '}', 'n', 't', 'f', '"', '[', '{'],
      ¬ (c = '-' ∨ c.isDigit = true) := by simp
  exact each c member

theorem stringText_append (content : String) (rest : List Char) :
    stringText content ++ rest = '"' :: (content.toList.flatMap escapedChar ++ '"' :: rest) := by
  rw [stringText, List.cons_append, List.append_assoc, List.singleton_append]

section Steps

variable {fuel : Nat} {text tail rest : List Char}

theorem readValue_number {c : Char} (start : c = '-' ∨ c.isDigit = true) :
    readValue (fuel + 1) (c :: rest) =
      (readNumber (c :: rest)).map fun (literal, rest) => (.number literal, rest) := by
  have noBlank : c ∉ [' ', '\n', '\t', '\r'] := fun blank =>
    not_start_of_mem (List.mem_append_left [']', '}', 'n', 't', 'f', '"', '[', '{'] blank) start
  rw [readValue, skipBlanks_cons noBlank]
  -- Every other kind of value starts with a character of its own.
  split
  all_goals first
    | rfl
    | (rename_i shape
       exact absurd start (not_start_of_mem ((List.cons.inj shape).1 ▸ by simp)))

@[simp] theorem readValue_string (content : String) :
    readValue (fuel + 1) (stringText content ++ rest) = some (.string (some content), rest) := by
  rw [stringText_append, readValue, skipBlanks_cons (by decide)]
  simp only [readString_text, Option.map_some]

theorem readValue_array {elements : List JsonTree} (starts : Starts text)
    (read : readElements fuel text = some (elements, rest)) :
    readValue (fuel + 1) ('[' :: text) = some (.array elements, rest) := by
  obtain ⟨c, tail, rfl, noEnd⟩ := starts
  simp only [List.mem_cons, List.not_mem_nil, or_false, not_or] at noEnd
  have stays : skipBlanks (c :: tail) = c :: tail := skipBlanks_cons (by simp [noEnd]) tail
  rw [readValue, skipBlanks_cons (by decide)]
  simp only [stays]
  split
  next closed => exact absurd (List.cons.inj closed).1 noEnd.2.2.2.2.1
  next => rw [read, Option.map_some]

theorem readValue_object {members : List (Option String × JsonTree)} (starts : Starts text)
    (read : readMembers fuel text = some (members, rest)) :
    readValue (fuel + 1) ('{' :: text) = some (.object members, rest) := by
  obtain ⟨c, tail, rfl, noEnd⟩ := starts
  simp only [List.mem_cons, List.not_mem_nil, or_false, not_or] at noEnd
  have stays : skipBlanks (c :: tail) = c :: tail := skipBlanks_cons (by simp [noEnd]) tail
  rw [readValue, skipBlanks_cons (by decide)]
  simp only [stays]
  split
  next closed => exact absurd (List.cons.inj closed).1 noEnd.2.2.2.2.2
  next => rw [read, Option.map_some]

theorem readElements_last {element : JsonTree}
    (read : readValue fuel text = some (element, ']' :: rest)) :
    readElements (fuel + 1) text = some ([element], rest) := by
  rw [readElements, read]
  rfl

theorem readElements_next {element : JsonTree} {elements : List JsonTree}
    (read : readValue fuel text = some (element, ',' :: tail))
    (others : readElements fuel tail = some (elements, rest)) :
    readElements (fuel + 1) text = some (element :: elements, rest) := by
  have stays : skipBlanks (',' :: tail) = ',' :: tail := skipBlanks_cons (by decide) tail
  rw [readElements, read]
  simp only [Option.bind_eq_bind, Option.bind_some, stays, others, Option.pure_def]

section Members

variable {key : String} {value : JsonTree} {members : List (Option String × JsonTree)}

theorem readMembers_last (read : readValue fuel text = some (value, '}' :: rest)) :
    readMembers (fuel + 1) (stringText key ++ ':' :: text) = some ([(some key, value)], rest) := by
  have colon : skipBlanks (':' :: text) = ':' :: text := skipBlanks_cons (by decide) text
  have stays : skipBlanks ('}' :: rest) = '}' :: rest := skipBlanks_cons (by decide) rest
  rw [stringText_append, readMembers, skipBlanks_cons (by decide)]
  simp only [readString_text, Option.bind_eq_bind, Option.bind_some, colon, read, stays,
    Option.pure_def]

theorem readMembers_next (read : readValue fuel text = some (value, ',' :: tail))
    (others : readMembers fuel tail = some (members, rest)) :
    readMembers (fuel + 1) (stringText key ++ ':' :: text) =
      some ((some key, value) :: members, rest) := by
  have colon : skipBlanks (':' :: text) = ':' :: text := skipBlanks_cons (by decide) text
  have stays : skipBlanks (',' :: tail) = ',' :: tail := skipBlanks_cons (by decide) tail
  rw [stringText_append, readMembers, skipBlanks_cons (by decide)]
  simp only [readString_text, Option.bind_eq_bind, Option.bind_some, colon, read, stays, others,
    Option.pure_def]

end Members

end Steps

/-! ### Whole values -/

theorem head_literalText {literal : JsonNumber} (wellFormed : literal.WellFormed) :
    ∃ c tail, literal.text = c :: tail ∧ (c = '-' ∨ c.isDigit = true) := by
  obtain ⟨first, others, whole⟩ := List.exists_cons_of_ne_nil wellFormed.whole_ne_nil
  have isDigit := wellFormed.whole_isDigit first (whole ▸ List.mem_cons_self)
  rw [JsonNumber.text, JsonNumber.unsignedText, whole]
  cases literal.negative with
  | true => exact ⟨'-', _, rfl, Or.inl rfl⟩
  | false => exact ⟨first, _, rfl, Or.inr isDigit⟩

theorem starts_of_number {c : Char} (start : c = '-' ∨ c.isDigit = true) (tail : List Char) :
    Starts (c :: tail) :=
  ⟨c, tail, rfl, fun member =>
    not_start_of_mem (List.mem_append_left ['n', 't', 'f', '"', '[', '{'] member) start⟩

theorem numberText_cases (value : Number) :
    (numberText value = "null".toList ∧ numberTree value = .null) ∨
      ∃ literal : JsonNumber, literal.WellFormed ∧ numberText value = literal.text ∧
        numberTree value = .number literal := by
  rw [numberTree]
  cases written : JsonNumber.ofNumber? value with
  | none =>
    obtain ⟨x, rfl, notFinite⟩ := JsonNumber.ofNumber?_eq_none_iff.1 written
    exact .inl ⟨JsonNumber.numberText_of_not_finite notFinite, rfl⟩
  | some literal =>
    exact .inr ⟨literal, JsonNumber.wellFormed_ofNumber? written,
      (JsonNumber.text_ofNumber? written).symm, rfl⟩

theorem readValue_numberText (value : Number) {fuel : Nat} {rest : List Char}
    (ends : EndsNumber rest) :
    readValue (fuel + 1) (numberText value ++ rest) = some (numberTree value, rest) := by
  rcases numberText_cases value with ⟨written, tree⟩ | ⟨literal, wellFormed, written, tree⟩
  · rw [written, tree]
    simp [readValue, skipBlanks]
  · obtain ⟨c, tail, text, start⟩ := head_literalText wellFormed
    have read := readNumber_text wellFormed ends
    rw [written, tree]
    rw [text, List.cons_append] at read ⊢
    rw [readValue_number start, read, Option.map_some]

theorem starts_compactText (value : Json) (rest : List Char) :
    Starts (value.compactText ++ rest) := by
  cases value with
  | null => exact ⟨'n', _, rfl, by decide⟩
  | number value =>
    rw [compactText]
    rcases numberText_cases value with ⟨written, -⟩ | ⟨literal, wellFormed, written, -⟩
    · rw [written]
      exact ⟨'n', _, rfl, by decide⟩
    · obtain ⟨c, tail, text, start⟩ := head_literalText wellFormed
      rw [written, text]
      exact starts_of_number start _
  | string text => exact ⟨'"', _, rfl, by decide⟩
  | array elements =>
    rw [compactText]
    exact ⟨'[', _, rfl, by decide⟩
  | object members =>
    rw [compactText]
    exact ⟨'{', _, rfl, by decide⟩

theorem starts_compactElements {elements : List Json} (nonempty : elements ≠ [])
    (rest : List Char) : Starts (compactElements elements ++ rest) := by
  match elements with
  | [element] => exact starts_compactText element rest
  | element :: second :: others =>
    rw [compactElements, List.append_assoc]
    · exact starts_compactText element _
    · simp

theorem starts_compactMembers {members : List (String × Json)} (nonempty : members ≠ [])
    (rest : List Char) : Starts (compactMembers members ++ rest) := by
  match members with
  | [(key, value)] => exact ⟨'"', _, rfl, by decide⟩
  | (key, value) :: second :: others =>
    rw [compactMembers]
    · exact ⟨'"', _, rfl, by decide⟩
    · simp

@[simp] theorem length_compactText_pos (value : Json) : 0 < value.compactText.length := by
  obtain ⟨c, tail, text, -⟩ := starts_compactText value []
  rw [List.append_nil] at text
  rw [text]
  exact Nat.succ_pos _

theorem endsNumber_cons {c : Char} (separates : c ∈ [',', ']', '}']) (rest : List Char) :
    EndsNumber (c :: rest) := by
  have each : ∀ c ∈ [',', ']', '}'], c.isDigit = false ∧ c ≠ '.' ∧ c ≠ 'e' ∧ c ≠ 'E' := by simp
  intro first member
  rw [List.head?_cons, Option.mem_some_iff] at member
  exact member ▸ each c separates

mutual

theorem readValue_compactText (value : Json) {fuel : Nat} {rest : List Char}
    (enough : 2 * value.compactText.length ≤ fuel + 1) (ends : EndsNumber rest) :
    readValue (fuel + 1) (value.compactText ++ rest) = some (value.toTree, rest) := by
  match value with
  | .null => simp [compactText, toTree, readValue, skipBlanks]
  | .number value => exact readValue_numberText value ends
  | .string text => exact readValue_string text
  | .array [] => simp [compactText, compactElements, toTree, elementTrees, readValue, skipBlanks]
  | .array (element :: others) =>
    rw [compactText, List.cons_append, List.append_assoc]
    rw [compactText, List.length_cons, List.length_append, List.length_singleton] at enough
    refine readValue_array (starts_compactElements (List.cons_ne_nil _ _) _) ?_
    exact readElements_compactElements element others (by omega)
  | .object [] => simp [compactText, compactMembers, toTree, memberTrees, readValue, skipBlanks]
  | .object (member :: others) =>
    rw [compactText, List.cons_append, List.append_assoc]
    rw [compactText, List.length_cons, List.length_append, List.length_singleton] at enough
    refine readValue_object (starts_compactMembers (List.cons_ne_nil _ _) _) ?_
    exact readMembers_compactMembers member others (by omega)

theorem readElements_compactElements (element : Json) (others : List Json) {fuel : Nat}
    {rest : List Char} (enough : 2 * (compactElements (element :: others)).length + 1 ≤ fuel) :
    readElements fuel (compactElements (element :: others) ++ ']' :: rest) =
      some (elementTrees (element :: others), rest) := by
  have positive := length_compactText_pos element
  match others with
  | [] =>
    rw [compactElements] at enough ⊢
    obtain ⟨fuel, rfl⟩ : ∃ steps, fuel = steps + 2 := ⟨fuel - 2, by omega⟩
    exact readElements_last
      (readValue_compactText element (by omega) (endsNumber_cons (by decide) rest))
  | second :: others =>
    rw [compactElements, List.length_append, List.length_cons] at enough
    · obtain ⟨fuel, rfl⟩ : ∃ steps, fuel = steps + 2 := ⟨fuel - 2, by omega⟩
      rw [compactElements, List.append_assoc, List.cons_append]
      · exact readElements_next
          (readValue_compactText element (by omega) (endsNumber_cons (by decide) _))
          (readElements_compactElements second others (by omega))
      · simp
    · simp

theorem readMembers_compactMembers (member : String × Json) (others : List (String × Json))
    {fuel : Nat} {rest : List Char}
    (enough : 2 * (compactMembers (member :: others)).length + 1 ≤ fuel) :
    readMembers fuel (compactMembers (member :: others) ++ '}' :: rest) =
      some (memberTrees (member :: others), rest) := by
  obtain ⟨key, value⟩ := member
  have positive := length_compactText_pos value
  match others with
  | [] =>
    rw [compactMembers, List.length_append, List.length_cons] at enough
    obtain ⟨fuel, rfl⟩ : ∃ steps, fuel = steps + 2 := ⟨fuel - 2, by omega⟩
    rw [compactMembers, List.append_assoc, List.cons_append]
    exact readMembers_last
      (readValue_compactText value (by omega) (endsNumber_cons (by decide) rest))
  | second :: others =>
    rw [compactMembers, List.length_append, List.length_append, List.length_cons,
      List.length_cons] at enough
    · obtain ⟨fuel, rfl⟩ : ∃ steps, fuel = steps + 2 := ⟨fuel - 2, by omega⟩
      rw [compactMembers, List.append_assoc, List.append_assoc, List.cons_append, List.cons_append]
      · exact readMembers_next
          (readValue_compactText value (by omega) (endsNumber_cons (by decide) _))
          (readMembers_compactMembers second others (by omega))
      · simp
    · simp

end

/-- The compact text of a value is read as its tree. -/
@[simp] theorem read?_compact (value : Json) : read? value.compact = some value.toTree := by
  have length : value.compact.length = value.compactText.length := String.length_ofList
  have enough : 2 * value.compactText.length ≤ 2 * value.compact.length + 1 + 1 := by omega
  have read := readValue_compactText value enough endsNumber_nil
  rw [List.append_nil] at read
  rw [read?, Json.compact, String.toList_ofList, ← Json.compact, read]
  rfl

end JsonTree

end BenchStats
