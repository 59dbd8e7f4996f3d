import Telltale.Text.Digits
import Telltale.Yaml.Scalar

/-!
# The YAML lexer

Splits YAML text into tokens. Blocks show themselves by indentation only, so the lexer keeps the
stack of indentations and writes the tokens that open and close blocks. A key shows itself only by
the colon after it, so every token that could begin a key is remembered as a `Candidate`, and the
key token is put in front of it when the colon comes.

* `Lexer.fetch?` takes one token from the text.
* `Token.ofText?` is the whole text, or nothing if some part of it is no YAML.
-/

namespace Telltale.Yaml

/-- A token that a key may begin with: the number of tokens before it and its place. It is required
to be a key when it stands at the indentation of its block. -/
structure Candidate where
  required : Bool
  index : Nat
  mark : Mark

/-- The state of the lexer. `candidates` has one place for the block context and one for each open
flow collection, the innermost first; `tokens` is in reverse, and `count` its length. -/
structure Lexer where
  rest : List Char
  mark : Mark
  indent : Int
  outerIndents : List Int
  keyAllowed : Bool
  candidates : List (Option Candidate)
  tokens : List Token
  count : Nat
  finished : Bool

namespace Lexer

/-- The state before a text. -/
def start (text : List Char) : Lexer := ⟨text, .start, -1, [], true, [none], [], 0, false⟩

/-! ### Bookkeeping -/

/-- Whether a flow collection is open. -/
def inFlow (x : Lexer) : Bool := 1 < x.candidates.length

/-- Adds a token. -/
def emit (x : Lexer) (t : Token) : Lexer :=
  { x with tokens := t :: x.tokens, count := x.count + 1 }

/-- Adds a token in front of the token number `index`. -/
def insertAt (x : Lexer) (index : Nat) (t : Token) : Lexer :=
  let (after, before) := x.tokens.splitAt (x.count - index)
  { x with tokens := after ++ t :: before, count := x.count + 1 }

/-- Passes over `n` characters of a line. -/
def skip (x : Lexer) (n : Nat) : Lexer :=
  { x with rest := x.rest.drop n, mark := x.mark.advance n }

/-- Goes on at another place. -/
def moveTo (x : Lexer) (rest : List Char) (mark : Mark) : Lexer :=
  { x with rest := rest, mark := mark }

/-- The greatest distance between a key and its colon. -/
def maxKeyLength : Nat := 1024

/-- Whether a candidate can no longer be a key: keys are short and stay on one line. -/
def isStale (x : Lexer) (c : Candidate) : Bool :=
  c.mark.line < x.mark.line || c.mark.index + maxKeyLength < x.mark.index

/-- Drops the candidates that can no longer be keys; a required one is an error. -/
def dropStale? (x : Lexer) : Option Lexer :=
  if x.candidates.any fun c => c.any fun c => x.isStale c && c.required then none
  else some { x with candidates := x.candidates.map fun c => c.filter fun c => !x.isStale c }

/-- Drops the candidate of the innermost context; a required one is an error. -/
def dropCandidate? (x : Lexer) : Option Lexer :=
  match x.candidates with
  | some c :: outer => if c.required then none else some { x with candidates := none :: outer }
  | _ => some x

/-- Remembers the next token as a candidate, where a key may begin. -/
def saveCandidate? (x : Lexer) : Option Lexer :=
  if x.keyAllowed then do
    let y ← x.dropCandidate?
    let required := !x.inFlow && x.indent == (x.mark.column : Int)
    some { y with candidates := some ⟨required, x.count, x.mark⟩ :: y.candidates.tail }
  else some x

/-- Sets whether a key may begin next. -/
def allowKey (x : Lexer) (allowed : Bool) : Lexer := { x with keyAllowed := allowed }

/-- Opens a block at a column deeper than the current one. Its token goes to the end, or in front of
the token with the given number. -/
def openBlock (x : Lexer) (column : Nat) (index : Option Nat) (t : Token) : Lexer :=
  if x.inFlow || (column : Int) ≤ x.indent then x
  else
    let y := { x with indent := column, outerIndents := x.indent :: x.outerIndents }
    match index with
    | some i => y.insertAt i t
    | none => y.emit t

/-- The indentations left, and the number of blocks closed, when all blocks deeper than a column are
closed. -/
def closedBlocks (column : Int) : Int → List Int → Int × List Int × Nat
  | indent, [] => (indent, [], 0)
  | indent, outer :: more =>
    if column < indent then
      let (left, stack, n) := closedBlocks column outer more
      (left, stack, n + 1)
    else (indent, outer :: more, 0)

/-- Closes the blocks that are deeper than a column. -/
def closeBlocks (x : Lexer) (column : Int) : Lexer :=
  if x.inFlow then x
  else
    let (indent, outer, n) := closedBlocks column x.indent x.outerIndents
    { x with
      indent := indent, outerIndents := outer,
      tokens := List.replicate n .blockEnd ++ x.tokens, count := x.count + n }

/-! ### Between tokens -/

/-- The gap between two tokens: whether it is in a comment, whether a key may follow, and the
place. -/
structure Gap where
  inComment : Bool
  keyAllowed : Bool
  mark : Mark

/-- A character of a gap. A tab counts as a gap where no key may begin, and a line break in a block
lets one begin. -/
def gapStep (inFlow : Bool) (g : Gap) (c : Char) (_ : List Char) : Step Gap :=
  if isBreak c then .next ⟨false, g.keyAllowed || !inFlow, g.mark.newline⟩
  else if g.inComment then .next { g with mark := g.mark.advance 1 }
  else if c == ' ' || (c == '\t' && (inFlow || !g.keyAllowed)) ||
      (c == byteOrderMark && g.mark.column == 0) then
    .next { g with mark := g.mark.advance 1 }
  else if c == '#' then .next { g with inComment := true, mark := g.mark.advance 1 }
  else .stop

/-- Goes on to the next token. -/
def skipGap (x : Lexer) : Lexer :=
  match consume (gapStep x.inFlow) ⟨false, x.keyAllowed, x.mark⟩ x.rest with
  | some (g, rest) => { x with rest := rest, mark := g.mark, keyAllowed := g.keyAllowed }
  | none => x

/-- The rest of a line that may only hold a gap and a comment, without its line break. -/
def lineRest? (x : Lexer) : Option Lexer :=
  let gap := x.rest.takeWhile isGap
  let y := x.skip gap.length
  let comment := if y.rest.head? == some '#' then y.rest.takeWhile (!isBreak ·) else []
  let z := y.skip comment.length
  match z.rest with
  | [] => some z
  | c :: rest => if isBreak c then some (z.moveTo rest z.mark.newline) else none

/-! ### Directives, anchors and tags -/

/-- A number of a version: one to nine digits. -/
def versionNumber? (cs : List Char) : Option (Nat × List Char) :=
  let digits := cs.takeWhile Char.isDigit
  if digits.isEmpty || 9 < digits.length then none
  else some (Text.natOfDigits digits, cs.dropWhile Char.isDigit)

/-- A handle of a tag: an exclamation mark, or a name between two. The name of a directive's handle
has to be closed. -/
def tagHandle? (directive : Bool) : List Char → Option (List Char × List Char)
  | '!' :: rest =>
    let name := rest.takeWhile isNameChar
    match rest.dropWhile isNameChar with
    | '!' :: after => some ('!' :: name ++ ['!'], after)
    | after => if directive && !name.isEmpty then none else some ('!' :: name, after)
  | _ => none

/-- Whether a character may stand in the suffix of a tag. Inside angle brackets some punctuation may
too. -/
def isTagChar (bracketed : Bool) (c : Char) : Bool :=
  isNameChar c || ";/?:@&=+$.%!~*'()".toList.contains c || (bracketed && ",[]".toList.contains c)

/-- The bytes that are escaped by percent signs at the start, and what follows them. -/
def escapedBytes : List Char → List UInt8 × List Char
  | '%' :: a :: b :: rest =>
    match Quoted.hexValue? a, Quoted.hexValue? b with
    | some m, some n =>
      let (bytes, after) := escapedBytes rest
      (UInt8.ofNat (m * 16 + n) :: bytes, after)
    | _, _ => ([], '%' :: a :: b :: rest)
  | cs => ([], cs)

/-- A suffix of a tag with its escapes resolved, which have to be whole characters of UTF-8. -/
def unescapeTag? (fuel : Nat) (cs : List Char) : Option (List Char) :=
  match fuel, cs with
  | _, [] => some []
  | 0, _ => none
  | n + 1, '%' :: rest =>
    let (bytes, after) := escapedBytes ('%' :: rest)
    if bytes.isEmpty then none
    else do
      let text ← String.fromUTF8? (ByteArray.mk bytes.toArray)
      let tail ← unescapeTag? n after
      some (text.toList ++ tail)
  | n + 1, c :: rest => (unescapeTag? n rest).map (c :: ·)

/-- The part of a tag after its handle. -/
def tagSuffix? (bracketed : Bool) (cs : List Char) : Option (List Char × List Char) := do
  let raw := cs.takeWhile (isTagChar bracketed)
  let text ← unescapeTag? raw.length raw
  some (text, cs.dropWhile (isTagChar bracketed))

/-- The lexer after a number of characters that a part of a line took. -/
def after (x : Lexer) (rest : List Char) : Lexer := x.skip (x.rest.length - rest.length)

/-- The version that a directive names. -/
def versionDirective? (x : Lexer) (cs : List Char) : Option Lexer := do
  let (major, cs) ← versionNumber? (cs.dropWhile isGap)
  let (minor, cs) ← if cs.head? == some '.' then versionNumber? (cs.drop 1) else none
  ((x.after cs).emit (.version major minor)).lineRest?

/-- The handle that a directive gives an expansion. -/
def tagDirective? (x : Lexer) (cs : List Char) : Option Lexer := do
  let (handle, cs) ← tagHandle? true (cs.dropWhile isGap)
  let (expansion, after) ← tagSuffix? true (cs.dropWhile isGap)
  if cs.head?.any isGap && !expansion.isEmpty && separatorNext after then
    let t := Token.tagDirective (String.ofList handle) (String.ofList expansion)
    ((x.after after).emit t).lineRest?
  else none

/-- A directive, of which there are two. -/
def directive? (x : Lexer) : Option Lexer := do
  let x ← (x.closeBlocks (-1)).dropCandidate?
  let x := x.allowKey false
  let cs := x.rest.drop 1
  let name := cs.takeWhile isNameChar
  let cs := cs.dropWhile isNameChar
  if !separatorNext cs then none
  else if name == "YAML".toList then x.versionDirective? cs
  else if name == "TAG".toList then x.tagDirective? cs
  else none

/-- An anchor or an alias: a mark and a name. -/
def anchor? (x : Lexer) (token : String → Token) : Option Lexer := do
  let x := (← x.saveCandidate?).allowKey false
  let name := (x.rest.drop 1).takeWhile isNameChar
  let after := (x.rest.drop 1).dropWhile isNameChar
  if name.isEmpty then none
  else if separatorNext after || after.head?.any ("?:,]\x7d%@`".toList.contains ·) then
    some ((x.skip (name.length + 1)).emit (token (String.ofList name)))
  else none

/-- The handle and the suffix of a tag. A tag in angle brackets has no handle, and an exclamation
mark alone is a suffix without one. -/
def tagParts? (cs : List Char) : Option (List Char × List Char × List Char) :=
  match cs with
  | '!' :: '<' :: rest => do
    let (suffix, after) ← tagSuffix? true rest
    if suffix.isEmpty then none
    else
      match after with
      | '>' :: after => some ([], suffix, after)
      | _ => none
  | _ => do
    let (handle, rest) ← tagHandle? false cs
    if 1 < handle.length && handle.getLast? == some '!' then
      let (suffix, after) ← tagSuffix? false rest
      if suffix.isEmpty then none else some (handle, suffix, after)
    else
      let (suffix, after) ← tagSuffix? false rest
      let whole := handle.drop 1 ++ suffix
      if whole.isEmpty then some ([], ['!'], after) else some (['!'], whole, after)

/-- A tag. -/
def tag? (x : Lexer) : Option Lexer := do
  let x := (← x.saveCandidate?).allowKey false
  let (handle, suffix, rest) ← tagParts? x.rest
  if separatorNext rest || (x.inFlow && rest.head? == some ',') then
    some ((x.after rest).emit (.tag (String.ofList handle) (String.ofList suffix)))
  else none

/-! ### Scalars -/

/-- The chomping and the indentation that a block scalar's first line may give, in either order. -/
def blockHeader? (cs : List Char) : Option (Chomping × Nat × List Char) :=
  let chomping? : Char → Option Chomping
    | '+' => some .keep
    | '-' => some .strip
    | _ => none
  let increment? (c : Char) : Option Nat :=
    if c.isDigit then some (c.toNat - '0'.toNat) else none
  let (chomping, increment, rest) : Option Chomping × Option Nat × List Char :=
    match cs with
    | [] => (none, none, [])
    | c :: rest =>
      match chomping? c, increment? c with
      | some k, _ =>
        match rest.head?.bind increment? with
        | some n => (some k, some n, rest.drop 1)
        | none => (some k, none, rest)
      | none, some n =>
        match rest.head?.bind chomping? with
        | some k => (some k, some n, rest.drop 1)
        | none => (none, some n, rest)
      | none, none => (none, none, cs)
  if increment == some 0 then none else some (chomping.getD .clip, increment.getD 0, rest)

/-- A block scalar. -/
def blockScalar? (x : Lexer) (literal : Bool) : Option Lexer := do
  let x := (← x.dropCandidate?).allowKey true
  let (chomping, increment, rest) ← blockHeader? (x.rest.drop 1)
  let y ← (x.after rest).lineRest?
  let least := (x.indent + 1).toNat
  let indent := if increment = 0 then 0 else increment + x.indent.toNat
  let initial : Block :=
    { literal := literal, indent := indent, least := least, deepest := 0, inLine := false,
      text := [], pending := [], blankLines := [], leadingGap := false, mark := y.mark }
  let (b, rest) ← consume Block.step initial y.rest
  let style := if literal then Style.literal else Style.folded
  some ((y.moveTo rest b.mark).emit (.scalar (b.result chomping) style))

/-- A quoted scalar. -/
def quotedScalar? (x : Lexer) (double : Bool) : Option Lexer := do
  let x := (← x.saveCandidate?).allowKey false
  let (q, rest) ← consume (Quoted.step double) ⟨.start, .text, x.mark.advance 1⟩ (x.rest.drop 1)
  if q.isClosed then some ((x.moveTo rest q.mark).emit (.scalar q.folding.result .quoted))
  else none

/-- A plain scalar. After a line break at its end a key may begin. -/
def plainScalar? (x : Lexer) : Option Lexer := do
  let x := (← x.saveCandidate?).allowKey false
  let (p, rest) ← consume (Plain.step x.inFlow (x.indent + 1).toNat) ⟨.start, x.mark⟩ x.rest
  let y := (x.moveTo rest p.mark).emit (.scalar p.folding.result .plain)
  some (if p.folding.broken then y.allowKey true else y)

/-! ### Punctuation -/

/-- The marks of a document's start or end. -/
def documentMark? (x : Lexer) (t : Token) : Option Lexer := do
  let x ← (x.closeBlocks (-1)).dropCandidate?
  some (((x.allowKey false).skip 3).emit t)

/-- The start of a flow collection. -/
def openFlow? (x : Lexer) (t : Token) : Option Lexer := do
  let x ← x.saveCandidate?
  let x := { x with candidates := none :: x.candidates }
  some (((x.allowKey true).skip 1).emit t)

/-- The end of a flow collection. -/
def closeFlow? (x : Lexer) (t : Token) : Option Lexer := do
  let x ← x.dropCandidate?
  let x := if x.inFlow then { x with candidates := x.candidates.tail } else x
  some (((x.allowKey false).skip 1).emit t)

/-- A comma. -/
def comma? (x : Lexer) : Option Lexer := do
  let x ← x.dropCandidate?
  some (((x.allowKey true).skip 1).emit .comma)

/-- A dash before an item. -/
def dash? (x : Lexer) : Option Lexer := do
  if !x.inFlow && !x.keyAllowed then none
  else
    let x ← (x.openBlock x.mark.column none .blockSequence).dropCandidate?
    some (((x.allowKey true).skip 1).emit .dash)

/-- A question mark before a key. -/
def key? (x : Lexer) : Option Lexer := do
  if !x.inFlow && !x.keyAllowed then none
  else
    let x ← (x.openBlock x.mark.column none .blockMapping).dropCandidate?
    some (((x.allowKey (!x.inFlow)).skip 1).emit .key)

/-- A colon before a value. If a candidate for a key stands before it, the key token goes in front
of the candidate. -/
def value? (x : Lexer) : Option Lexer :=
  match x.candidates with
  | some c :: outer =>
    let y := { x with candidates := none :: outer }
    let y := (y.insertAt c.index .key).openBlock c.mark.column (some c.index) .blockMapping
    some (((y.allowKey false).skip 1).emit .value)
  | _ =>
    if x.inFlow then some (((x.allowKey false).skip 1).emit .value)
    else if !x.keyAllowed then none
    else
      let y := x.openBlock x.mark.column none .blockMapping
      some (((y.allowKey true).skip 1).emit .value)

/-- The end of the text. -/
def finish? (x : Lexer) : Option Lexer := do
  let x := if x.mark.column = 0 then x else x.moveTo x.rest x.mark.newline
  let x ← (x.closeBlocks (-1)).dropCandidate?
  some { x.allowKey false with finished := true }

/-! ### The lexer -/

/-- Whether a plain scalar begins with a character. -/
def beginsPlain (x : Lexer) (c : Char) (rest : List Char) : Bool :=
  let mark := "-?:,[]\x7b\x7d#&*!|>'\"%@`".toList.contains c
  !(isSeparator c || mark) || (c == '-' && !rest.head?.any isGap) ||
    (!x.inFlow && (c == '?' || c == ':') && !separatorNext rest)

/-- The token that begins with a character. -/
def token? (x : Lexer) (c : Char) (rest : List Char) : Option Lexer :=
  if x.mark.column == 0 && c == '%' then x.directive?
  else if x.mark.column == 0 && documentMarkNext (c :: rest) then
    x.documentMark? (if c == '-' then .documentStart else .documentEnd)
  else if c == '[' then x.openFlow? .openSequence
  else if c == '\x7b' then x.openFlow? .openMapping
  else if c == ']' then x.closeFlow? .closeSequence
  else if c == '\x7d' then x.closeFlow? .closeMapping
  else if c == ',' then x.comma?
  else if c == '-' && separatorNext rest then x.dash?
  else if c == '?' && (x.inFlow || separatorNext rest) then x.key?
  else if c == ':' && (x.inFlow || separatorNext rest) then x.value?
  else if c == '*' then x.anchor? .alias
  else if c == '&' then x.anchor? .anchor
  else if c == '!' then x.tag?
  else if c == '|' && !x.inFlow then x.blockScalar? true
  else if c == '>' && !x.inFlow then x.blockScalar? false
  else if c == '\'' then x.quotedScalar? false
  else if c == '"' then x.quotedScalar? true
  else if x.beginsPlain c rest then x.plainScalar?
  else none

/-- One token further, with the tokens that the indentation before it asks for. -/
def fetch? (x : Lexer) : Option Lexer := do
  let x ← x.skipGap.dropStale?
  let x := x.closeBlocks x.mark.column
  match x.rest with
  | [] => x.finish?
  | c :: rest => x.token? c rest

/-- Fetches tokens until the text ends. Each one takes a character at least, so as many steps as
there are characters, and one for the end, suffice. -/
def run? : Nat → Lexer → Option Lexer
  | 0, _ => none
  | n + 1, x => do
    let y ← x.fetch?
    if y.finished then some y else run? n y

end Lexer

/-- The tokens of a text. -/
def Token.ofText? (s : String) : Option (List Token) :=
  let cs := s.toList
  let cs := if cs.head? == some byteOrderMark then cs.drop 1 else cs
  if cs.all isAllowed then
    let text := normalizeBreaks cs
    (Lexer.run? (text.length + 1) (.start text)).map (·.tokens.reverse)
  else none

end Telltale.Yaml
