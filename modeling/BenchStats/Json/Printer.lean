import BenchStats.Json.Basic

/-!
# JSON texts

Two layouts of a JSON value: compact, without any blanks, and indented by two spaces a level. Both
escape only what has to be escaped, so other characters stand for themselves.
-/

namespace BenchStats.Json

def escapedChar (c : Char) : List Char :=
  if c = '"' then ['\\', '"']
  else if c = '\\' then ['\\', '\\']
  else if c = '\x08' then ['\\', 'b']
  else if c = '\t' then ['\\', 't']
  else if c = '\n' then ['\\', 'n']
  else if c = '\x0c' then ['\\', 'f']
  else if c = '\r' then ['\\', 'r']
  else if c.toNat < 32 then
    ['\\', 'u', '0', '0', Nat.digitChar (c.toNat / 16), Nat.digitChar (c.toNat % 16)]
  else [c]

def stringText (text : String) : List Char :=
  '"' :: (text.toList.flatMap escapedChar ++ ['"'])

/-- A JSON number; `null` stands for what has no JSON number. -/
def numberText : Number → List Char
  | .int value => (Number.intText value.toInt).toList
  | .float (.finite negative x) => Decimal.jsonLayout.finiteText negative x
  | .float _ => "null".toList

mutual

def compactText : Json → List Char
  | .null => "null".toList
  | .number value => numberText value
  | .string text => stringText text
  | .array elements => '[' :: (compactElements elements ++ [']'])
  | .object members => '{' :: (compactMembers members ++ ['}'])

def compactElements : List Json → List Char
  | [] => []
  | [element] => compactText element
  | element :: rest => compactText element ++ ',' :: compactElements rest

def compactMembers : List (String × Json) → List Char
  | [] => []
  | [(key, value)] => stringText key ++ ':' :: compactText value
  | (key, value) :: rest => stringText key ++ ':' :: compactText value ++ ',' :: compactMembers rest

end

/-- The start of a line at a nesting depth. -/
def indentation (depth : Nat) : List Char := '\n' :: List.replicate (2 * depth) ' '

mutual

def indentedText (depth : Nat) : Json → List Char
  | .null => "null".toList
  | .number value => numberText value
  | .string text => stringText text
  | .array [] => ['[', ']']
  | .array elements => '[' :: (indentedElements (depth + 1) elements ++ indentation depth ++ [']'])
  | .object [] => ['{', '}']
  | .object members => '{' :: (indentedMembers (depth + 1) members ++ indentation depth ++ ['}'])

def indentedElements (depth : Nat) : List Json → List Char
  | [] => []
  | [element] => indentation depth ++ indentedText depth element
  | element :: rest =>
    indentation depth ++ indentedText depth element ++ ',' :: indentedElements depth rest

def indentedMembers (depth : Nat) : List (String × Json) → List Char
  | [] => []
  | [(key, value)] => indentation depth ++ stringText key ++ ':' :: ' ' :: indentedText depth value
  | (key, value) :: rest =>
    indentation depth ++ stringText key ++ ':' :: ' ' :: indentedText depth value ++
      ',' :: indentedMembers depth rest

end

def compact (value : Json) : String := String.ofList value.compactText

def indented (value : Json) : String := String.ofList (value.indentedText 0)

end BenchStats.Json
