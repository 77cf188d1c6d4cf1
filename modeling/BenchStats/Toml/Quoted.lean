import BenchStats.Text.HexDigit

/-!
# TOML strings

Strings between double quotes have escapes, strings between single quotes have none. Three quotes
on each side allow line ends inside; a line end is always one line feed, and the one behind the
opening quotes does not count.
-/

namespace BenchStats.Toml

/-- Whether a character may stand in a string or a comment as itself. -/
def isAllowed (c : Char) : Bool := c = '\t' || (32 ≤ c.toNat && c.toNat ≠ 127)

/-- The character that an escape of one letter stands for. -/
def escapedChar? (c : Char) : Option Char :=
  match c with
  | '"' => some '"'
  | '\\' => some '\\'
  | 'b' => some '\x08'
  | 'f' => some '\x0c'
  | 'n' => some '\n'
  | 'r' => some '\r'
  | 't' => some '\t'
  | _ => none

/-- The character with the number that hexadecimal digits denote. -/
def charOfDigits? (digits : List Char) : Option Char := do
  let n ← Text.hexNumber? digits
  if n.isValidChar then some (Char.ofNat n) else none

/-- The rest of a string behind its opening double quote, and what follows the closing one. -/
def readBasic : List Char → Option (List Char × List Char)
  | [] => none
  | '"' :: rest => some ([], rest)
  | '\\' :: 'u' :: a :: b :: c :: d :: rest => do
    let char ← charOfDigits? [a, b, c, d]
    let (chars, rest) ← readBasic rest
    return (char :: chars, rest)
  | '\\' :: 'U' :: a :: b :: c :: d :: e :: f :: g :: h :: rest => do
    let char ← charOfDigits? [a, b, c, d, e, f, g, h]
    let (chars, rest) ← readBasic rest
    return (char :: chars, rest)
  | '\\' :: c :: rest => do
    let char ← escapedChar? c
    let (chars, rest) ← readBasic rest
    return (char :: chars, rest)
  | c :: rest =>
    if c ≠ '\\' && isAllowed c then do
      let (chars, rest) ← readBasic rest
      return (c :: chars, rest)
    else none

/-- The rest of a string behind its opening single quote, and what follows the closing one. -/
def readLiteral (text : List Char) : Option (List Char × List Char) :=
  let chars := text.takeWhile (· ≠ '\'')
  match text.dropWhile (· ≠ '\'') with
  | _ :: rest => if chars.all isAllowed then some (chars, rest) else none
  | [] => none

/-- Whether only blanks come before the next line end. -/
def endsLine (text : List Char) : Bool :=
  match text.dropWhile fun c => c = ' ' || c = '\t' with
  | '\n' :: _ => true
  | '\r' :: '\n' :: _ => true
  | _ => false

/-- The rest of a string behind three opening double quotes. While `skipping`, blanks and line ends
are passed over, as they are behind a backslash that ends a line. -/
def readBasicLines (skipping : Bool) : List Char → Option (List Char × List Char)
  | [] => none
  | '"' :: '"' :: '"' :: '"' :: '"' :: rest => some (['"', '"'], rest)
  | '"' :: '"' :: '"' :: '"' :: rest => some (['"'], rest)
  | '"' :: '"' :: '"' :: rest => some ([], rest)
  | '\\' :: 'u' :: a :: b :: c :: d :: rest => do
    let char ← charOfDigits? [a, b, c, d]
    let (chars, rest) ← readBasicLines false rest
    return (char :: chars, rest)
  | '\\' :: 'U' :: a :: b :: c :: d :: e :: f :: g :: h :: rest => do
    let char ← charOfDigits? [a, b, c, d, e, f, g, h]
    let (chars, rest) ← readBasicLines false rest
    return (char :: chars, rest)
  | '\\' :: c :: rest =>
    if endsLine (c :: rest) then readBasicLines true (c :: rest)
    else do
      let char ← escapedChar? c
      let (chars, rest) ← readBasicLines false rest
      return (char :: chars, rest)
  | '\r' :: '\n' :: rest =>
    if skipping then readBasicLines true rest
    else do
      let (chars, rest) ← readBasicLines false rest
      return ('\n' :: chars, rest)
  | c :: rest =>
    if skipping && (c = ' ' || c = '\t' || c = '\n') then readBasicLines true rest
    else if c ≠ '\\' && (c = '\n' || isAllowed c) then do
      let (chars, rest) ← readBasicLines false rest
      return (c :: chars, rest)
    else none

/-- The rest of a string behind three opening single quotes. -/
def readLiteralLines : List Char → Option (List Char × List Char)
  | [] => none
  | '\'' :: '\'' :: '\'' :: '\'' :: '\'' :: rest => some (['\'', '\''], rest)
  | '\'' :: '\'' :: '\'' :: '\'' :: rest => some (['\''], rest)
  | '\'' :: '\'' :: '\'' :: rest => some ([], rest)
  | '\r' :: '\n' :: rest => do
    let (chars, rest) ← readLiteralLines rest
    return ('\n' :: chars, rest)
  | c :: rest =>
    if c = '\n' || isAllowed c then do
      let (chars, rest) ← readLiteralLines rest
      return (c :: chars, rest)
    else none

/-- A text without a line end at its start. -/
def dropLineEnd : List Char → List Char
  | '\n' :: rest => rest
  | '\r' :: '\n' :: rest => rest
  | text => text

/-- A string on one line at the start of a text, as a key can be; `none` if there is none. -/
def readKeyString : List Char → Option (List Char × List Char)
  | '"' :: rest => readBasic rest
  | '\'' :: rest => readLiteral rest
  | _ => none

/-- A string of any of the four kinds at the start of a text. -/
def readString : List Char → Option (List Char × List Char)
  | '"' :: '"' :: '"' :: rest => readBasicLines false (dropLineEnd rest)
  | '\'' :: '\'' :: '\'' :: rest => readLiteralLines (dropLineEnd rest)
  | text => readKeyString text

end BenchStats.Toml
