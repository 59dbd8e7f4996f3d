import Telltale.Datum
import Telltale.Text.Digits

/-!
# The lexemes of JSON text

One pass over the characters splits JSON text into brackets, commas, colons, strings and words
(numbers and the three names). `Token.ofText?` refuses text with a character that cannot stand where
it stands. A string with half of a surrogate pair, and a number beyond every double, are lexemes
that cannot be read; whether that matters is up to the reader.
-/

namespace Telltale.Json

open Text (digitValue natOfDigits)

/-- A lexeme of JSON text. -/
inductive Token where
  | openList
  | closeList
  | openMapping
  | closeMapping
  | comma
  | colon
  | scalar (d : Datum)
  | text (s : Option String)

/-! ### Numbers -/

/-- Appends decimal digits to a significand as long as it fits in 64 bits, and counts the digits
taken. -/
def takeDigits (significand : Nat) (taken : Nat) : List Char → Nat × Nat
  | [] => (significand, taken)
  | c :: rest =>
    let next := significand * 10 + digitValue c
    if next < 2 ^ 64 then takeDigits next (taken + 1) rest else (significand, taken)

/-- The parts of a number: sign, digits before the point, digits after it, and the exponent. -/
structure NumberParts where
  negative : Bool
  whole : List Char
  fraction : Option (List Char)
  exponent : Option Int

/-- The exponent of a number: at least one digit after an optional sign. -/
def exponentOf? (cs : List Char) : Option Int :=
  let (negative, digits) :=
    match cs with
    | '+' :: rest => (false, rest)
    | '-' :: rest => (true, rest)
    | _ => (false, cs)
  if digits.isEmpty || !digits.all Char.isDigit then none
  else some (if negative then -(natOfDigits digits : Int) else natOfDigits digits)

/-- What follows the digits before the point: a fraction, an exponent, both or neither. -/
def tailOf? (negative : Bool) (whole rest : List Char) : Option NumberParts :=
  let fraction := (rest.drop 1).takeWhile Char.isDigit
  let hasFraction := rest.head? == some '.'
  let after := if hasFraction then (rest.drop 1).dropWhile Char.isDigit else rest
  if hasFraction && fraction.isEmpty then none
  else
    let parts := NumberParts.mk negative whole (if hasFraction then some fraction else none)
    match after with
    | [] => some (parts none)
    | 'e' :: cs | 'E' :: cs => (exponentOf? cs).map fun e => parts (some e)
    | _ => none

/-- The parts of a number, if the word is one. There are digits before the point, and a zero in
front stands alone. -/
def partsOf? (word : List Char) : Option NumberParts :=
  let (negative, unsigned) :=
    match word with
    | '-' :: rest => (true, rest)
    | _ => (false, word)
  let whole := unsigned.takeWhile Char.isDigit
  if whole.isEmpty || (whole.head? == some '0' && 1 < whole.length) then none
  else tailOf? negative whole (unsigned.dropWhile Char.isDigit)

/-- The decimal that is read: digits beyond 64 bits are dropped, those before the point with their
place value. -/
def NumberParts.decimal (p : NumberParts) : Decimal :=
  let (significand, taken) := takeDigits 0 0 p.whole
  let (digits, places) := takeDigits significand 0 (p.fraction.getD [])
  ⟨p.negative, digits, (p.whole.length - taken : Nat) - (places : Int) + p.exponent.getD 0⟩

/-- The number: an integer if it is written as one, is in range and is not a negative zero, and
otherwise a double, which may be out of reach. -/
def NumberParts.datum (p : NumberParts) : Datum :=
  let magnitude := natOfDigits p.whole
  let integer? :=
    if p.fraction.isSome || p.exponent.isSome || (p.negative && magnitude == 0) then none
    else Number.ofInt? (if p.negative then -(magnitude : Int) else magnitude)
  match integer? with
  | some n => .number n
  | none =>
    match p.decimal.scaled? with
    | some x => .number (.double x)
    | none => .unreadable

/-- The scalar of a word. -/
def scalarOf? (word : List Char) : Option Datum :=
  if word == "null".toList then some .null
  else if word == "true".toList then some (.bool true)
  else if word == "false".toList then some (.bool false)
  else (partsOf? word).map NumberParts.datum

/-! ### Strings -/

/-- The characters of a string so far, in reverse, unless half of a surrogate pair stood alone; and
the first half of a pair that waits for the second one. -/
structure Gathered where
  chars : Option (List Char)
  high : Option Nat

namespace Gathered

/-- Nothing gathered. -/
def start : Gathered := ⟨some [], none⟩

/-- A character that is not an escape of a code unit. -/
def push (g : Gathered) (c : Char) : Gathered :=
  ⟨if g.high.isSome then none else g.chars.map (c :: ·), none⟩

/-- An escaped code unit. -/
def pushUnit (g : Gathered) (u : Nat) : Gathered :=
  match g.high with
  | some h =>
    if 0xDC00 ≤ u && u ≤ 0xDFFF then
      ⟨g.chars.map (Char.ofNat (0x10000 + (h - 0xD800) * 0x400 + (u - 0xDC00)) :: ·), none⟩
    else ⟨none, none⟩
  | none =>
    if 0xD800 ≤ u && u ≤ 0xDBFF then ⟨g.chars, some u⟩
    else if 0xDC00 ≤ u && u ≤ 0xDFFF then ⟨none, none⟩
    else ⟨g.chars.map (Char.ofNat u :: ·), none⟩

/-- The string at the closing quote. -/
def finish (g : Gathered) : Option String :=
  if g.high.isSome then none else g.chars.map fun cs => String.ofList cs.reverse

end Gathered

/-- The character of a one-letter escape. -/
def simpleEscape? : Char → Option Char
  | '"' => some '"'
  | '\\' => some '\\'
  | '/' => some '/'
  | 'b' => some '\x08'
  | 'f' => some '\x0c'
  | 'n' => some '\n'
  | 'r' => some '\r'
  | 't' => some '\t'
  | _ => none

/-- The value of a hexadecimal digit of either case. -/
def hexValue? (c : Char) : Option Nat :=
  if c.isDigit then some (digitValue c)
  else if 'a' ≤ c && c ≤ 'f' then some (c.toNat - 'a'.toNat + 10)
  else if 'A' ≤ c && c ≤ 'F' then some (c.toNat - 'A'.toNat + 10)
  else none

/-! ### The pass -/

/-- Where the pass stands: between lexemes, in a word, in a string, after a backslash, or in the
digits of an escape. -/
inductive Position where
  | between
  | word (chars : List Char)
  | string (g : Gathered)
  | escape (g : Gathered)
  | digits (g : Gathered) (left : Nat) (value : Nat)

/-- The position with the lexemes so far, in reverse. -/
structure Pass where
  position : Position
  tokens : List Token

/-- Whether a character may stand between lexemes. -/
def isSpace (c : Char) : Bool := c == ' ' || c == '\n' || c == '\t' || c == '\r'

/-- The lexeme of a punctuation character. -/
def punctuation? : Char → Option Token
  | '[' => some .openList
  | ']' => some .closeList
  | '\x7b' => some .openMapping
  | '\x7d' => some .closeMapping
  | ',' => some .comma
  | ':' => some .colon
  | _ => none

namespace Pass

/-- A character between lexemes. -/
def betweenStep (tokens : List Token) (c : Char) : Pass :=
  if isSpace c then ⟨.between, tokens⟩
  else if c == '"' then ⟨.string .start, tokens⟩
  else
    match punctuation? c with
    | some t => ⟨.between, t :: tokens⟩
    | none => ⟨.word [c], tokens⟩

/-- One character further. -/
def step (p : Pass) (c : Char) : Option Pass :=
  match p.position with
  | .between => some (betweenStep p.tokens c)
  | .word cs =>
    if isSpace c || c == '"' || (punctuation? c).isSome then
      (scalarOf? cs.reverse).map fun d => betweenStep (.scalar d :: p.tokens) c
    else some ⟨.word (c :: cs), p.tokens⟩
  | .string g =>
    if c == '"' then some ⟨.between, .text g.finish :: p.tokens⟩
    else if c == '\\' then some ⟨.escape g, p.tokens⟩
    else if c.toNat < 32 then none
    else some ⟨.string (g.push c), p.tokens⟩
  | .escape g =>
    if c == 'u' then some ⟨.digits g 4 0, p.tokens⟩
    else (simpleEscape? c).map fun d => ⟨.string (g.push d), p.tokens⟩
  | .digits g left value =>
    (hexValue? c).map fun v =>
      let value := value * 16 + v
      if left ≤ 1 then ⟨.string (g.pushUnit value), p.tokens⟩
      else ⟨.digits g (left - 1) value, p.tokens⟩

/-- The lexemes at the end of the text. -/
def finish? (p : Pass) : Option (List Token) :=
  match p.position with
  | .between => some p.tokens.reverse
  | .word cs => (scalarOf? cs.reverse).map fun d => (.scalar d :: p.tokens).reverse
  | _ => none

end Pass

/-- The lexemes of a text, unless some character is out of place. -/
def Token.ofText? (s : String) : Option (List Token) :=
  (s.toList.foldlM Pass.step ⟨.between, []⟩).bind Pass.finish?

end Telltale.Json
