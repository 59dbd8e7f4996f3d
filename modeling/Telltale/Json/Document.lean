import Telltale.Json.Token

/-!
# JSON documents

The lexemes of JSON text are put together into data with a stack of the lists and mappings that are
still open. A list or mapping inside 127 others, or a deeper one, is unreadable.

* `Datum.ofJsonText?` reads a document.
* `Json.ofText?` reads it as a value.
-/

namespace Telltale.Json

/-- A list or mapping that is still open, with its members so far in reverse. -/
inductive Level where
  | list (done : List Datum)
  | mapping (done : List (Datum × Datum))
  | entry (key : Datum) (done : List (Datum × Datum))

/-- What may come next: a value, a value or the end of a list just opened, a key, a key or the end
of a mapping just opened, a colon, a comma or the end, or nothing more. -/
inductive Expected where
  | value
  | valueOrClose
  | key
  | keyOrClose
  | colon
  | commaOrClose
  | nothing
  deriving DecidableEq

/-- A document that is being read: the open levels, the innermost first, what may come next, and the
finished document. -/
structure Partial where
  levels : List Level
  expected : Expected
  result : Option Datum

namespace Partial

/-- Nothing read. -/
def start : Partial := ⟨[], .value, none⟩

/-- The greatest nesting that is read. -/
def maxDepth : Nat := 127

/-- Whether a value may come next. -/
def wantsValue (p : Partial) : Bool := p.expected == .value || p.expected == .valueOrClose

/-- A value is finished. -/
def put? (p : Partial) (d : Datum) : Option Partial :=
  match p.levels with
  | [] => some ⟨[], .nothing, some d⟩
  | .list done :: outer => some ⟨.list (d :: done) :: outer, .commaOrClose, none⟩
  | .entry key done :: outer => some ⟨.mapping ((key, d) :: done) :: outer, .commaOrClose, none⟩
  | .mapping _ :: _ => none

/-- The innermost level is finished; it is unreadable if it lies too deep. -/
def close? (p : Partial) (d : Datum) : Option Partial :=
  let outer := p.levels.tail
  put? ⟨outer, .value, none⟩ (if maxDepth < p.levels.length then .unreadable else d)

/-- The datum of a string. -/
def textDatum : Option String → Datum
  | some s => .string s
  | none => .unreadable

/-- One lexeme further. -/
def step (p : Partial) : Token → Option Partial
  | .openList => if p.wantsValue then some ⟨.list [] :: p.levels, .valueOrClose, none⟩ else none
  | .openMapping => if p.wantsValue then some ⟨.mapping [] :: p.levels, .keyOrClose, none⟩ else none
  | .scalar d => if p.wantsValue then p.put? d else none
  | .text s =>
    match p.expected, p.levels with
    | .key, .mapping done :: outer | .keyOrClose, .mapping done :: outer =>
      some ⟨.entry (textDatum s) done :: outer, .colon, none⟩
    | _, _ => if p.wantsValue then p.put? (textDatum s) else none
  | .colon => if p.expected == .colon then some ⟨p.levels, .value, none⟩ else none
  | .comma =>
    match p.expected, p.levels with
    | .commaOrClose, .list _ :: _ => some ⟨p.levels, .value, none⟩
    | .commaOrClose, .mapping _ :: _ => some ⟨p.levels, .key, none⟩
    | _, _ => none
  | .closeList =>
    match p.expected, p.levels with
    | .valueOrClose, .list done :: _ | .commaOrClose, .list done :: _ =>
      p.close? (.list done.reverse)
    | _, _ => none
  | .closeMapping =>
    match p.expected, p.levels with
    | .keyOrClose, .mapping done :: _ | .commaOrClose, .mapping done :: _ =>
      p.close? (.mapping done.reverse)
    | _, _ => none

end Partial

end Telltale.Json

namespace Telltale

/-- The document of a JSON text. -/
def Datum.ofJsonText? (s : String) : Option Datum :=
  (Json.Token.ofText? s).bind fun tokens =>
    (tokens.foldlM Json.Partial.step Json.Partial.start).bind (·.result)

/-- The value of a JSON text. -/
def Json.ofText? (s : String) : Option Json := (Datum.ofJsonText? s).bind Datum.toJson?

end Telltale
