import BenchStats.Text.GraphemeExtend
import BenchStats.Text.Unprintable

/-!
# Quoted text in messages

A piece of input that a message cites stands between double quotes, with an escape for every
character that would not be seen as itself.
-/

namespace BenchStats.Text

/-- Whether a character is a letter that is shown as nothing, which only fills the place of a part
of a Korean syllable. -/
def isFiller (c : Char) : Bool := inRanges [(0x115f, 0x1160), (0x3164, 0x3164), (0xffa0, 0xffa0)] c

/-- Whether a character is one of the two sound marks of Japanese that, being of half the width of
a letter, take a place of their own. -/
def isHalfwidthSoundMark (c : Char) : Bool := inRanges [(0xff9e, 0xff9f)] c

/-- Whether a character would not be seen as itself in a text: nothing is shown for it, or it
becomes part of the character before it. -/
def isHidden (c : Char) : Bool :=
  isUnprintable c || isFiller c || (isGraphemeExtend c && !isHalfwidthSoundMark c)

def quotedChar (c : Char) : List Char :=
  if c = '\t' then ['\\', 't']
  else if c = '\n' then ['\\', 'n']
  else if c = '\r' then ['\\', 'r']
  else if c = '\x00' then ['\\', '0']
  else if c = '"' then ['\\', '"']
  else if c = '\\' then ['\\', '\\']
  else if isHidden c then
    ['\\', 'u', '{'] ++ Nat.toDigits 16 c.toNat ++ ['}']
  else [c]

def quoted (text : String) : String :=
  String.ofList ('"' :: (text.toList.flatMap quotedChar ++ ['"']))

end BenchStats.Text
