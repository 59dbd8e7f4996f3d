import Telltale.Yaml.Token

/-!
# Scanning scalars

The three ways in which a YAML scalar is written, each as a machine that takes one character after
the other. A line break inside a scalar is folded: a single one becomes a space, and of several the
first is dropped.

* `consume` runs a machine; `Step` says whether it goes on, stops before the character, or refuses.
* `Plain.step`, `Quoted.step` and `Block.step` are the machines.
-/

namespace Telltale.Yaml

/-! ### Machines -/

/-- What a machine does with a character. -/
inductive Step (σ : Type) where
  | next (state : σ)
  | stop
  | refuse

/-- Runs a machine. It sees each character together with what follows it, and the result is its last
state with the characters that it left. -/
def consume (step : σ → Char → List Char → Step σ) : σ → List Char → Option (σ × List Char)
  | s, [] => some (s, [])
  | s, c :: rest =>
    match step s c rest with
    | .next s' => consume step s' rest
    | .stop => some (s, c :: rest)
    | .refuse => none

/-! ### Folding -/

/-- The text of a scalar so far, in reverse, and the gap after it: spaces of the same line, or the
first line break and those after it, in reverse. `broken` tells that the gap has a line break, also
an escaped one. -/
structure Folding where
  text : List Char
  spaces : List Char
  firstBreak : Option Char
  laterBreaks : List Char
  broken : Bool

namespace Folding

/-- No text and no gap. -/
def start : Folding := ⟨[], [], none, [], false⟩

/-- A space or tab of the gap; after a line break it is indentation. -/
def space (f : Folding) (c : Char) : Folding :=
  if f.broken then f else ⟨f.text, c :: f.spaces, f.firstBreak, f.laterBreaks, false⟩

/-- A line break of the gap. -/
def lineBreak (f : Folding) (c : Char) : Folding :=
  if f.broken then ⟨f.text, f.spaces, f.firstBreak, c :: f.laterBreaks, true⟩
  else ⟨f.text, [], some c, [], true⟩

/-- A line break that is escaped and leaves nothing. -/
def escapedBreak (f : Folding) : Folding := ⟨f.text, [], none, [], true⟩

/-- The gap becomes text. -/
def join (f : Folding) : Folding :=
  let gap :=
    if !f.broken then f.spaces
    else
      match f.firstBreak with
      | some '\n' => if f.laterBreaks.isEmpty then [' '] else f.laterBreaks
      | some c => f.laterBreaks ++ [c]
      | none => f.laterBreaks
  ⟨gap ++ f.text, [], none, [], false⟩

/-- A character of the text, after the gap. -/
def push (f : Folding) (c : Char) : Folding :=
  let g := f.join
  ⟨c :: g.text, [], none, [], false⟩

/-- The text, without a gap at its end. -/
def result (f : Folding) : String := String.ofList f.text.reverse

end Folding

/-! ### Plain scalars -/

/-- A plain scalar in a flow or block context, which continues on lines at least `indent` deep. -/
structure Plain where
  folding : Folding
  mark : Mark

namespace Plain

/-- Whether a character is punctuation of flow collections. -/
def isFlowMark (c : Char) : Bool :=
  c == ',' || c == '[' || c == ']' || c == '\x7b' || c == '\x7d'

/-- A character that is no separator. -/
def wordStep (inFlow : Bool) (p : Plain) (c : Char) (rest : List Char) : Step Plain :=
  if inFlow && c == ':' && rest.head?.any (fun d => isFlowMark d || d == '?') then .refuse
  else if (c == ':' && separatorNext rest) || (inFlow && isFlowMark c) then .stop
  else .next ⟨p.folding.push c, p.mark.advance 1⟩

/-- A character: part of a word or of a gap. After a gap, a comment, a document mark or too little
indentation ends the scalar. -/
def step (inFlow : Bool) (indent : Nat) (p : Plain) (c : Char) (rest : List Char) : Step Plain :=
  let inGap := p.folding.broken || !p.folding.spaces.isEmpty
  if isGap c then
    if p.folding.broken && p.mark.column < indent && c == '\t' then .refuse
    else .next ⟨p.folding.space c, p.mark.advance 1⟩
  else if isBreak c then .next ⟨p.folding.lineBreak c, p.mark.newline⟩
  else if inGap && ((!inFlow && p.mark.column < indent) || c == '#' ||
      (p.mark.column == 0 && documentMarkNext (c :: rest))) then .stop
  else wordStep inFlow p c rest

end Plain

/-! ### Quoted scalars -/

/-- Where a quoted scalar stands: in its text, after a quote that may be doubled, after a backslash,
in the digits of an escape, or at its end. -/
inductive QuotedMode where
  | text
  | quote
  | escape
  | digits (left value : Nat)
  | done
  deriving DecidableEq

/-- A quoted scalar. -/
structure Quoted where
  folding : Folding
  mode : QuotedMode
  mark : Mark

namespace Quoted

/-- The character of a one-letter escape. -/
def simpleEscape? : Char → Option Char
  | '0' => some '\x00'
  | 'a' => some '\x07'
  | 'b' => some '\x08'
  | 't' | '\t' => some '\t'
  | 'n' => some '\n'
  | 'v' => some '\x0b'
  | 'f' => some '\x0c'
  | 'r' => some '\r'
  | 'e' => some '\x1b'
  | ' ' => some ' '
  | '"' => some '"'
  | '/' => some '/'
  | '\\' => some '\\'
  | 'N' => some (Char.ofNat 0x85)
  | '_' => some (Char.ofNat 0xA0)
  | 'L' => some (Char.ofNat 0x2028)
  | 'P' => some (Char.ofNat 0x2029)
  | _ => none

/-- How many hexadecimal digits an escape has. -/
def digitEscape? : Char → Option Nat
  | 'x' => some 2
  | 'u' => some 4
  | 'U' => some 8
  | _ => none

/-- The value of a hexadecimal digit of either case. -/
def hexValue? (c : Char) : Option Nat :=
  if c.isDigit then some (c.toNat - '0'.toNat)
  else if 'a' ≤ c && c ≤ 'f' then some (c.toNat - 'a'.toNat + 10)
  else if 'A' ≤ c && c ≤ 'F' then some (c.toNat - 'A'.toNat + 10)
  else none

/-- A character after a backslash. -/
def escapeStep (q : Quoted) (c : Char) : Step Quoted :=
  if isBreak c then .next ⟨q.folding.escapedBreak, .text, q.mark.newline⟩
  else
    match simpleEscape? c, digitEscape? c with
    | some d, _ => .next ⟨q.folding.push d, .text, q.mark.advance 1⟩
    | none, some n => .next ⟨q.folding, .digits n 0, q.mark.advance 1⟩
    | none, none => .refuse

/-- A digit of an escape. The code points of surrogates are refused, also in pairs. -/
def digitStep (q : Quoted) (left value : Nat) (c : Char) : Step Quoted :=
  match hexValue? c with
  | none => .refuse
  | some v =>
    let value := value * 16 + v
    if 1 < left then .next ⟨q.folding, .digits (left - 1) value, q.mark.advance 1⟩
    else if (0xD800 ≤ value && value ≤ 0xDFFF) || 0x10FFFF < value then .refuse
    else .next ⟨q.folding.push (Char.ofNat value), .text, q.mark.advance 1⟩

/-- A character of the text. -/
def textStep (double : Bool) (q : Quoted) (c : Char) (rest : List Char) : Step Quoted :=
  if isGap c then .next ⟨q.folding.space c, .text, q.mark.advance 1⟩
  else if isBreak c then .next ⟨q.folding.lineBreak c, .text, q.mark.newline⟩
  else if q.mark.column == 0 && documentMarkNext (c :: rest) then .refuse
  else
    let after := q.mark.advance 1
    if double && c == '"' then .next ⟨q.folding.join, .done, after⟩
    else if double && c == '\\' then .next ⟨q.folding.join, .escape, after⟩
    else if !double && c == '\'' then .next ⟨q.folding.join, .quote, after⟩
    else .next ⟨q.folding.push c, .text, after⟩

/-- A character after the opening quote. -/
def step (double : Bool) (q : Quoted) (c : Char) (rest : List Char) : Step Quoted :=
  match q.mode with
  | .text => textStep double q c rest
  | .quote => if c == '\'' then .next ⟨q.folding.push '\'', .text, q.mark.advance 1⟩ else .stop
  | .escape => escapeStep q c
  | .digits left value => digitStep q left value c
  | .done => .stop

/-- Whether the closing quote has been seen. -/
def isClosed (q : Quoted) : Bool := q.mode == .done || q.mode == .quote

end Quoted

/-! ### Block scalars -/

/-- What happens to the line breaks at the end of a block scalar: all but the first go, all go, or
all stay. -/
inductive Chomping where
  | clip
  | strip
  | keep
  deriving DecidableEq

/-- A block scalar. `indent` is zero until the first line with text shows it; `deepest` is the
deepest indentation of the lines before. In a line, `inLine` holds. `pending` is the line break
after the last line with text and `blankLines` are those after it, in reverse. -/
structure Block where
  literal : Bool
  indent : Nat
  least : Nat
  deepest : Nat
  inLine : Bool
  text : List Char
  pending : List Char
  blankLines : List Char
  leadingGap : Bool
  mark : Mark

namespace Block

/-- The indentation, found at the first line with text. -/
def settle (b : Block) : Block :=
  if b.indent = 0 then
    { b with indent := max (max b.deepest b.mark.column) (max b.least 1) }
  else b

/-- Starts a line with text: the breaks before it become text, folded between two lines that start
with no gap. -/
def openLine (b : Block) (c : Char) : Block :=
  let gap := isGap c
  let before :=
    if !b.literal && b.pending == ['\n'] && !b.leadingGap && !gap then
      if b.blankLines.isEmpty then [' '] else b.blankLines
    else b.blankLines ++ b.pending
  { b with
    text := c :: (before ++ b.text), pending := [], blankLines := [], leadingGap := gap,
    inLine := true, mark := b.mark.advance 1 }

/-- A character in the indentation of a line. -/
def indentStep (b : Block) (c : Char) : Step Block :=
  let shallow := b.indent == 0 || b.mark.column < b.indent
  if shallow && c == ' ' then .next { b with mark := b.mark.advance 1 }
  else
    let b := { b with deepest := max b.deepest b.mark.column }
    if shallow && c == '\t' then .refuse
    else if isBreak c then .next { b with blankLines := c :: b.blankLines, mark := b.mark.newline }
    else
      let b := b.settle
      if b.mark.column == b.indent then .next (b.openLine c) else .stop

/-- A character of the scalar. -/
def step (b : Block) (c : Char) (_ : List Char) : Step Block :=
  if b.inLine then
    if isBreak c then .next { b with pending := [c], inLine := false, mark := b.mark.newline }
    else .next { b with text := c :: b.text, mark := b.mark.advance 1 }
  else indentStep b c

/-- The text of the whole scalar. -/
def result (b : Block) (chomping : Chomping) : String :=
  let tail :=
    match chomping with
    | .strip => []
    | .clip => b.pending
    | .keep => b.blankLines ++ b.pending
  String.ofList (tail ++ b.text).reverse

end Block

end Telltale.Yaml
