/-!
# The lexemes of YAML text

The vocabulary that the YAML lexer and the tree builder share: character classes, places in a text,
and the tokens themselves. Line breaks are brought to one form before anything else looks at a text,
so that `isBreak` knows three characters only.
-/

namespace Telltale.Yaml

/-! ### Characters -/

/-- Whether a character may occur in YAML text at all. -/
def isAllowed (c : Char) : Bool :=
  c == '\t' || c == '\n' || c == '\r' || (0x20 ≤ c.toNat && c.toNat ≤ 0x7E) || c.toNat == 0x85 ||
    (0xA0 ≤ c.toNat && c.toNat ≤ 0xFFFD) || 0x10000 ≤ c.toNat

/-- The mark that may stand at the start of a text or a line and means nothing. -/
def byteOrderMark : Char := Char.ofNat 0xFEFF

/-- Carriage returns, alone or before a line feed, and the next-line character become line feeds. -/
def normalizeBreaks : List Char → List Char
  | [] => []
  | '\r' :: '\n' :: rest => '\n' :: normalizeBreaks rest
  | c :: rest => (if c == '\r' || c.toNat == 0x85 then '\n' else c) :: normalizeBreaks rest

/-- Whether a character ends a line. -/
def isBreak (c : Char) : Bool := c == '\n' || c.toNat == 0x2028 || c.toNat == 0x2029

/-- Whether a character is a space or a tab. -/
def isGap (c : Char) : Bool := c == ' ' || c == '\t'

/-- Whether a character separates: a space, a tab or a line break. -/
def isSeparator (c : Char) : Bool := isGap c || isBreak c

/-- Whether a separator or the end of the text comes next. -/
def separatorNext : List Char → Bool
  | [] => true
  | c :: _ => isSeparator c

/-- Whether a character may stand in the name of an anchor, a directive or a tag handle. -/
def isNameChar (c : Char) : Bool := c.isAlphanum || c == '_' || c == '-'

/-- Whether three marks of a kind, which start or end a document, stand next. -/
def documentMarkNext : List Char → Bool
  | '-' :: '-' :: '-' :: rest => separatorNext rest
  | '.' :: '.' :: '.' :: rest => separatorNext rest
  | _ => false

/-! ### Places -/

/-- A place in a text, counted in characters. -/
structure Mark where
  index : Nat
  line : Nat
  column : Nat

namespace Mark

/-- The start of a text. -/
def start : Mark := ⟨0, 0, 0⟩

/-- The place after `n` characters of the same line. -/
def advance (m : Mark) (n : Nat) : Mark := ⟨m.index + n, m.line, m.column + n⟩

/-- The start of the next line. -/
def newline (m : Mark) : Mark := ⟨m.index + 1, m.line + 1, 0⟩

end Mark

/-! ### Tokens -/

/-- How a scalar is written. -/
inductive Style where
  | plain
  | quoted
  | literal
  | folded
  deriving DecidableEq

/-- A lexeme. A tag has a handle, which a directive may expand, and a suffix. -/
inductive Token where
  | version (major minor : Nat)
  | tagDirective (handle expansion : String)
  | documentStart
  | documentEnd
  | blockSequence
  | blockMapping
  | blockEnd
  | openSequence
  | closeSequence
  | openMapping
  | closeMapping
  | comma
  | dash
  | key
  | value
  | alias (name : String)
  | anchor (name : String)
  | tag (handle suffix : String)
  | scalar (text : String) (style : Style)
  deriving DecidableEq

end Telltale.Yaml
