import BenchStats.Json.Literal
import BenchStats.Text.HexDigit

/-!
# Reading JSON

A JSON text is read as a tree whose leaves are still as they were written. What a leaf denotes is
settled where it is used, so a part that nobody asks for has to be well-formed but may hold a
number that is too large or a string with half of a surrogate pair.
-/

namespace BenchStats

/-- A JSON text as a tree. A string is missing where its escapes do not denote characters. -/
inductive JsonTree where
  | null
  | boolean (value : Bool)
  | number (literal : JsonNumber)
  | string (text : Option String)
  | array (elements : List JsonTree)
  | object (members : List (Option String × JsonTree))

namespace JsonTree

/-- A text without the blanks that JSON allows between tokens at its start. -/
def skipBlanks (text : List Char) : List Char :=
  text.dropWhile fun c => c = ' ' || c = '\n' || c = '\t' || c = '\r'

/-! ### Strings -/

/-- A piece of a string: a character, or the number in an escape. -/
inductive StringUnit where
  | char (c : Char)
  | code (n : Nat)

/-- The character that an escape of one letter stands for. -/
def escapedChar? (c : Char) : Option Char :=
  match c with
  | '"' => some '"'
  | '\\' => some '\\'
  | '/' => some '/'
  | 'b' => some '\x08'
  | 'f' => some '\x0c'
  | 'n' => some '\n'
  | 'r' => some '\r'
  | 't' => some '\t'
  | _ => none

/-- The rest of a string behind its opening quote, and what follows the closing one. -/
def readUnits : List Char → Option (List StringUnit × List Char)
  | [] => none
  | '"' :: rest => some ([], rest)
  | '\\' :: 'u' :: a :: b :: c :: d :: rest => do
    let n ← Text.hexNumber? [a, b, c, d]
    let (units, rest) ← readUnits rest
    return (.code n :: units, rest)
  | '\\' :: c :: rest => do
    let char ← escapedChar? c
    let (units, rest) ← readUnits rest
    return (.char char :: units, rest)
  | c :: rest =>
    if c = '\\' || c.toNat < 32 then none
    else do
      let (units, rest) ← readUnits rest
      return (.char c :: units, rest)

/-- The characters of a string, in which the halves of surrogate pairs come together. -/
def joinUnits : List StringUnit → Option (List Char)
  | [] => some []
  | .char c :: rest => (joinUnits rest).map (c :: ·)
  | .code high :: .code low :: rest =>
    if 0xD800 ≤ high ∧ high < 0xDC00 then
      if 0xDC00 ≤ low ∧ low < 0xE000 then
        (joinUnits rest).map
          (Char.ofNat (0x10000 + (high - 0xD800) * 0x400 + (low - 0xDC00)) :: ·)
      else none
    else if 0xDC00 ≤ high ∧ high < 0xE000 then none
    else (joinUnits (.code low :: rest)).map (Char.ofNat high :: ·)
  | .code n :: rest =>
    if 0xD800 ≤ n ∧ n < 0xE000 then none else (joinUnits rest).map (Char.ofNat n :: ·)

def readString (text : List Char) : Option (Option String × List Char) := do
  let (units, rest) ← readUnits text
  return ((joinUnits units).map String.ofList, rest)

/-! ### Numbers -/

/-- The digits before the point: a zero alone, or digits that do not start with one. -/
def readWhole (text : List Char) : Option (List Char × List Char) :=
  match text.takeWhile Char.isDigit with
  | [] => none
  | '0' :: _ :: _ => none
  | digits => some (digits, text.dropWhile Char.isDigit)

/-- The fraction, which has at least one digit, if there is a point. -/
def readFraction : List Char → Option (List Char × List Char)
  | '.' :: rest =>
    match rest.takeWhile Char.isDigit with
    | [] => none
    | digits => some (digits, rest.dropWhile Char.isDigit)
  | text => some ([], text)

/-- The exponent, which has at least one digit, if there is a letter for it. -/
def readExponent : List Char → Option (Option Int × List Char)
  | [] => some (none, [])
  | c :: rest =>
    if c = 'e' || c = 'E' then
      let (negative, rest) := Decimal.takeSign rest
      match rest.takeWhile Char.isDigit with
      | [] => none
      | digits =>
        let n : Int := Nat.ofDigitChars 10 digits 0
        some (some (if negative then -n else n), rest.dropWhile Char.isDigit)
    else some (none, c :: rest)

def readNumber (text : List Char) : Option (JsonNumber × List Char) := do
  let (negative, rest) := match text with
    | '-' :: rest => (true, rest)
    | rest => (false, rest)
  let (whole, rest) ← readWhole rest
  let (fraction, rest) ← readFraction rest
  let (exponent, rest) ← readExponent rest
  return (⟨negative, whole, fraction, exponent⟩, rest)

/-! ### Values -/

mutual

/-- A value at the start of a text, and what follows it. Every nesting and every element takes
characters of the text, so twice its length bounds the steps. -/
def readValue : Nat → List Char → Option (JsonTree × List Char)
  | 0, _ => none
  | fuel + 1, text =>
    match skipBlanks text with
    | 'n' :: 'u' :: 'l' :: 'l' :: rest => some (.null, rest)
    | 't' :: 'r' :: 'u' :: 'e' :: rest => some (.boolean true, rest)
    | 'f' :: 'a' :: 'l' :: 's' :: 'e' :: rest => some (.boolean false, rest)
    | '"' :: rest => (readString rest).map fun (content, rest) => (.string content, rest)
    | '[' :: rest =>
      match skipBlanks rest with
      | ']' :: rest => some (.array [], rest)
      | rest => (readElements fuel rest).map fun (elements, rest) => (.array elements, rest)
    | '{' :: rest =>
      match skipBlanks rest with
      | '}' :: rest => some (.object [], rest)
      | rest => (readMembers fuel rest).map fun (members, rest) => (.object members, rest)
    | rest => (readNumber rest).map fun (literal, rest) => (.number literal, rest)

/-- The elements of an array up to its closing bracket; there is at least one. -/
def readElements : Nat → List Char → Option (List JsonTree × List Char)
  | 0, _ => none
  | fuel + 1, text => do
    let (element, rest) ← readValue fuel text
    match skipBlanks rest with
    | ']' :: rest => return ([element], rest)
    | ',' :: rest =>
      let (elements, rest) ← readElements fuel rest
      return (element :: elements, rest)
    | _ => none

/-- The members of an object up to its closing brace; there is at least one. -/
def readMembers : Nat → List Char → Option (List (Option String × JsonTree) × List Char)
  | 0, _ => none
  | fuel + 1, text =>
    match skipBlanks text with
    | '"' :: rest => do
      let (key, rest) ← readString rest
      match skipBlanks rest with
      | ':' :: rest =>
        let (value, rest) ← readValue fuel rest
        match skipBlanks rest with
        | '}' :: rest => return ([(key, value)], rest)
        | ',' :: rest =>
          let (members, rest) ← readMembers fuel rest
          return ((key, value) :: members, rest)
        | _ => none
      | _ => none
    | _ => none

end

/-- The tree of a text that holds one JSON value and nothing else. -/
def read? (text : String) : Option JsonTree := do
  let (tree, rest) ← readValue (2 * text.length + 2) text.toList
  if (skipBlanks rest).isEmpty then return tree else none

/-! ### Uses of a tree -/

def number? : JsonTree → Option Number
  | .number literal => literal.value?
  | _ => none

def elements? : JsonTree → Option (List JsonTree)
  | .array elements => some elements
  | _ => none

/-- The value of a member that is there exactly once. -/
def uniqueMember? (members : List (Option String × JsonTree)) (name : String) : Option JsonTree :=
  match members.filter (·.1 = some name) with
  | [(_, value)] => some value
  | _ => none

/-- The values of a structure with named fields: an object that has each of them once among other
members, or an array of just the values in their order. -/
def fields? (names : List String) : JsonTree → Option (List JsonTree)
  | .object members =>
    if members.all (·.1.isSome) then names.mapM (uniqueMember? members) else none
  | .array elements => if elements.length = names.length then some elements else none
  | _ => none

end JsonTree

end BenchStats
