import Telltale.Yaml.Resolve

/-!
# Spelling texts in YAML

How a text is written as the value of a field of a block mapping, so that it is read as the same
text and not as a number, a truth value or null.

* `Spelling.of` picks the plainest spelling that a text allows.
* `Spelling.write` writes a text in a spelling.
* `fieldLine` and `countLine` write fields.
-/

namespace Telltale.Yaml

/-! ### What a text holds -/

/-- Whether a character is written as itself. Tabs, control characters, the byte order mark and all
characters beyond the first plane are escaped. -/
def isPrintable (c : Char) : Bool :=
  c == '\n' || (0x20 ≤ c.toNat && c.toNat ≤ 0x7E) ||
    (0xA0 ≤ c.toNat && c.toNat ≤ 0xFFFD && c != byteOrderMark)

/-- Whether two characters of two kinds stand side by side somewhere. -/
def adjacent (first second : Char → Bool) : List Char → Bool
  | c :: d :: rest => (first c && second d) || adjacent first second (d :: rest)
  | _ => false

/-- Whether a character is a space. -/
def isSpace (c : Char) : Bool := c == ' '

/-- Characters with which no plain scalar starts. -/
def reservedStarts : List Char :=
  ['#', ',', '[', ']', '\x7b', '\x7d', '&', '*', '!', '|', '>', '\'', '"', '%', '@',
   Char.ofNat 0x60]

/-- Whether the start of a text would be taken for punctuation. -/
def startsAsMark : List Char → Bool
  | '-' :: '-' :: '-' :: _ => true
  | '.' :: '.' :: '.' :: _ => true
  | c :: rest => reservedStarts.contains c || (['?', ':', '-'].contains c && separatorNext rest)
  | [] => false

/-- Whether a text has a colon before a separator, or a hash after one. -/
def holdsMark : List Char → Bool
  | [] => false
  | c :: rest =>
    (c == ':' && separatorNext rest) || (isSeparator c && rest.head? == some '#') || holdsMark rest

/-- Words that some readers take for truth values. -/
def truthWords : List String :=
  ["y", "Y", "yes", "Yes", "YES", "n", "N", "no", "No", "NO", "true", "True", "TRUE", "false",
   "False", "FALSE", "on", "On", "ON", "off", "Off", "OFF"]

/-- Whether a plain scalar would be read as something else than a text, or has been by some
reader. -/
def readsOtherwise (s : String) : Bool :=
  truthWords.contains s || isPaddedDigits s.toList ||
    match plainDatum s with
    | .string _ => false
    | _ => true

/-! ### Spellings -/

/-- The spellings of a text. -/
inductive Spelling where
  | plain
  | singleQuoted
  | doubleQuoted
  | literal
  deriving DecidableEq

namespace Spelling

/-- Whether a text can be put in single quotes. -/
def allowsSingle (cs : List Char) : Bool :=
  cs.all isPrintable && !adjacent isBreak isSpace cs && !adjacent isSpace isBreak cs

/-- Whether a text can stand as it is. -/
def allowsPlain (cs : List Char) : Bool :=
  allowsSingle cs && !cs.any isBreak && !cs.head?.any isSpace && !cs.getLast?.any isSpace &&
    !startsAsMark cs && !holdsMark cs

/-- Whether a text can stand as a literal block. -/
def allowsLiteral (cs : List Char) : Bool :=
  cs.all isPrintable && !adjacent isSpace isBreak cs && !cs.getLast?.any isSpace

/-- The spelling of a text. -/
def of (s : String) : Spelling :=
  let cs := s.toList
  if cs.contains '\n' then if allowsLiteral cs then .literal else .doubleQuoted
  else if readsOtherwise s then .singleQuoted
  else if allowsPlain cs then .plain
  else if allowsSingle cs then .singleQuoted
  else .doubleQuoted

/-! ### Writing -/

/-- Indents every line with text. `atStart` tells that a line starts here. -/
def indented (atStart : Bool) : List Char → List Char
  | [] => []
  | c :: rest =>
    if isBreak c then c :: indented true rest
    else if atStart then ' ' :: ' ' :: c :: indented false rest
    else c :: indented false rest

/-- The letter of a character that has an escape of one letter. -/
def escapeLetter? (c : Char) : Option Char :=
  match c.toNat with
  | 0x00 => some '0'
  | 0x07 => some 'a'
  | 0x08 => some 'b'
  | 0x09 => some 't'
  | 0x0A => some 'n'
  | 0x0B => some 'v'
  | 0x0C => some 'f'
  | 0x0D => some 'r'
  | 0x1B => some 'e'
  | 0x22 => some '"'
  | 0x5C => some '\\'
  | 0x85 => some 'N'
  | 0x2028 => some 'L'
  | 0x2029 => some 'P'
  | _ => none

/-- A number in hexadecimal, in upper case and at a fixed width. -/
def hexDigits (width n : Nat) : List Char :=
  let digits := (Nat.toDigits 16 n).map Char.toUpper
  List.replicate (width - digits.length) '0' ++ digits

/-- An escape of digits, as short as the code point allows. -/
def digitEscape (n : Nat) : List Char :=
  if n ≤ 0xFF then 'x' :: hexDigits 2 n
  else if n ≤ 0xFFFF then 'u' :: hexDigits 4 n
  else 'U' :: hexDigits 8 n

/-- A character between double quotes. -/
def escapedChar (c : Char) : List Char :=
  if isPrintable c && !isBreak c && c != '"' && c != '\\' then [c]
  else
    match escapeLetter? c with
    | some letter => ['\\', letter]
    | none => '\\' :: digitEscape c.toNat

/-- A character between single quotes. -/
def doubledQuote (c : Char) : List Char := if c = '\'' then ['\'', '\''] else [c]

/-- What a literal block says about the line breaks at its end: that there is none, or that all
count. -/
def chomping (cs : List Char) : String :=
  match cs.reverse with
  | c :: d :: _ => if !isBreak c then "-" else if isBreak d then "+" else ""
  | [c] => if isBreak c then "+" else "-"
  | [] => "-"

/-- What a literal block says about its indentation, if its first line does not show it. -/
def indentHint (cs : List Char) : String :=
  if cs.head?.any (fun c => isSpace c || isBreak c) then "2" else ""

/-- A text in a spelling. -/
def write (s : String) : Spelling → String
  | .plain => s
  | .singleQuoted =>
    let lines := indented false (s.toList.flatMap doubledQuote)
    let last := if s.toList.getLast?.any isBreak then "  " else ""
    "'" ++ String.ofList lines ++ last ++ "'"
  | .doubleQuoted => "\"" ++ String.ofList (s.toList.flatMap escapedChar) ++ "\""
  | .literal =>
    "|" ++ indentHint s.toList ++ chomping s.toList ++ "\n" ++
      String.ofList (indented true s.toList)

/-- Whether the text ends in a way that leaves the end of the document open. -/
def isOpen (s : String) : Bool := of s == .literal && chomping s.toList == "+"

end Spelling

/-! ### Fields -/

/-- A field that holds a text, with the end of its line. -/
def fieldLine (name value : String) : String :=
  let line := name ++ ": " ++ (Spelling.of value).write value
  if line.toList.getLast?.any isBreak then line else line ++ "\n"

/-- A field that holds a natural number. -/
def countLine (name : String) (n : Nat) : String := name ++ ": " ++ toString n ++ "\n"

/-- What ends a document that holds the given texts. -/
def documentEnd (texts : List String) : String := if texts.any Spelling.isOpen then "...\n" else ""

end Telltale.Yaml
