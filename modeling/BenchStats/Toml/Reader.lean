import BenchStats.Toml.Quoted
import BenchStats.Toml.Scalar

/-!
# Reading TOML

A document is read line by line: headers, assignments, comments and blank lines. The lines are then
put together by the rules of tables. A document that nests too deeply is refused.
-/

namespace BenchStats.Toml

/-- How deep arrays and tables between braces may stand in one another, and how many parts a key
may have. -/
def nestingLimit : Nat := 79

/-- A text without the blanks at its start. -/
def skipBlanks (text : List Char) : List Char := text.dropWhile fun c => c = ' ' || c = '\t'

/-- A text without blanks, line ends and comments at its start. -/
def skipLines (inComment : Bool) : List Char → Option (List Char)
  | [] => some []
  | '\r' :: '\n' :: rest => skipLines false rest
  | c :: rest =>
    if c = '\n' then skipLines false rest
    else if inComment then (if isAllowed c then skipLines true rest else none)
    else if c = ' ' || c = '\t' then skipLines false rest
    else if c = '#' then skipLines true rest
    else some (c :: rest)

/-- What follows the end of a line, before which only blanks and a comment may stand. -/
def readLineEnd (inComment : Bool) : List Char → Option (List Char)
  | [] => some []
  | '\r' :: '\n' :: rest => some rest
  | c :: rest =>
    if c = '\n' then some rest
    else if inComment then (if isAllowed c then readLineEnd true rest else none)
    else if c = ' ' || c = '\t' then readLineEnd false rest
    else if c = '#' then readLineEnd true rest
    else none

/-! ### Keys -/

/-- Whether a character can be part of a key without quotes. -/
def isKeyChar (c : Char) : Bool := c.isAlphanum || c = '_' || c = '-'

def readKeyPart (text : List Char) : Option (String × List Char) :=
  match text.takeWhile isKeyChar with
  | [] => (readKeyString text).map fun (chars, rest) => (String.ofList chars, rest)
  | chars => some (String.ofList chars, text.dropWhile isKeyChar)

/-- A dotted key of at most the given number of parts: its steps and its last part. -/
def readKeyParts : Nat → List Char → Option (List String × String × List Char)
  | 0, _ => none
  | limit + 1, text => do
    let (part, rest) ← readKeyPart (skipBlanks text)
    match skipBlanks rest with
    | '.' :: rest =>
      let (steps, last, rest) ← readKeyParts limit rest
      return (part :: steps, last, rest)
    | rest => return ([], part, rest)

def readKey (text : List Char) : Option (List String × String × List Char) :=
  readKeyParts nestingLimit text

/-! ### Values -/

mutual

/-- A value at the start of a text, with room for so many arrays and tables in one another; without
room a bracket starts no value. Every nesting and every element takes characters of the text, so
twice its length bounds the steps. -/
def readValue : Nat → Nat → List Char → Option (Toml × List Char)
  | 0, _, _ => none
  | fuel + 1, room, text =>
    match text, room with
    | '[' :: rest, room + 1 =>
      (readElements fuel room rest).map fun (elements, rest) => (.array elements, rest)
    | '{' :: rest, room + 1 =>
      match skipBlanks rest with
      | '}' :: rest => some (.table .inline [], rest)
      | rest =>
        (readMembers fuel room [] rest).map fun (members, rest) => (.table .inline members, rest)
    | c :: _, _ =>
      if c = '"' || c = '\'' then
        (readString text).map fun (chars, rest) => (.string (String.ofList chars), rest)
      else readScalar text
    | [], _ => none

/-- The elements of an array up to its closing bracket; a comma may stand behind the last one. -/
def readElements : Nat → Nat → List Char → Option (List Toml × List Char)
  | 0, _, _ => none
  | fuel + 1, room, text => do
    match ← skipLines false text with
    | ']' :: rest => return ([], rest)
    | rest =>
      let (element, rest) ← readValue fuel room rest
      match ← skipLines false rest with
      | ']' :: rest => return ([element], rest)
      | ',' :: rest =>
        let (elements, rest) ← readElements fuel room rest
        return (element :: elements, rest)
      | _ => none

/-- The members of a table between braces, added to those before them; there is at least one. -/
def readMembers : Nat → Nat → Members Toml → List Char → Option (Members Toml × List Char)
  | 0, _, _, _ => none
  | fuel + 1, room, members, text => do
    let (path, key, rest) ← readKey text
    match rest with
    | '=' :: rest =>
      let (value, rest) ← readValue fuel room (skipBlanks rest)
      let members ← assign key value path members
      match skipBlanks rest with
      | '}' :: rest => return (members, rest)
      | ',' :: rest => readMembers fuel room members rest
      | _ => none
    | _ => none

end

/-! ### Documents -/

/-- One line of a document that is neither blank nor a comment, and the text behind its end. -/
def readLine (text : List Char) : Option (Line × List Char) :=
  match text with
  | '[' :: '[' :: rest => do
    let (path, key, rest) ← readKey rest
    match rest with
    | ']' :: ']' :: rest => return (.element path key, ← readLineEnd false rest)
    | _ => none
  | '[' :: rest => do
    let (path, key, rest) ← readKey rest
    match rest with
    | ']' :: rest => return (.header path key, ← readLineEnd false rest)
    | _ => none
  | text => do
    let (path, key, rest) ← readKey text
    match rest with
    | '=' :: rest =>
      let (value, rest) ← readValue (2 * rest.length + 2) nestingLimit (skipBlanks rest)
      return (.assignment path key value, ← readLineEnd false rest)
    | _ => none

/-- The lines of a document. Every line takes characters, so the length of the text bounds their
number. -/
def readLines : Nat → List Char → Option (List Line)
  | 0, _ => none
  | fuel + 1, text => do
    match ← skipLines false text with
    | [] => return []
    | text =>
      let (line, rest) ← readLine text
      let lines ← readLines fuel rest
      return line :: lines

/-- The members of the document in a text; a byte order mark at its start does not count. -/
def read? (text : String) : Option (Members Toml) := do
  let text := match text.toList with
    | '\ufeff' :: rest => rest
    | chars => chars
  let lines ← readLines (text.length + 1) text
  ofLines? lines

end BenchStats.Toml
