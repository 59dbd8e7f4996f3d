import Telltale.Text.Hidden

/-!
# Escaped text

A text in double quotes, in which every character that cannot be seen is written by its code point.
-/

namespace Telltale.Text

/-- The code point of a character, in hexadecimal. -/
def codePoint (c : Char) : List Char :=
  ['\\', 'u', '\x7b'] ++ Nat.toDigits 16 c.toNat ++ ['\x7d']

/-- A character between the quotes. -/
def escapedChar (c : Char) : List Char :=
  if c = '"' then ['\\', '"']
  else if c = '\\' then ['\\', '\\']
  else if c = '\n' then ['\\', 'n']
  else if c = '\r' then ['\\', 'r']
  else if c = '\t' then ['\\', 't']
  else if c.toNat = 0 then ['\\', '0']
  else if isHidden c then codePoint c
  else [c]

/-- The text in quotes. -/
def escaped (s : String) : String :=
  "\"" ++ String.ofList (s.toList.flatMap escapedChar) ++ "\""

end Telltale.Text
