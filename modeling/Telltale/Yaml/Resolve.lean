import Telltale.Datum
import Telltale.Yaml.Tree

/-!
# The types of YAML scalars

Which type a scalar has, by its spelling when it is plain and by its tag when it has one of the
standard tags.

* `integer?` and `real?` are the spellings of numbers.
* `Scalar.datum` is the typed scalar.
-/

namespace Telltale.Yaml

-- the powers of the core library, whatever else is in scope
attribute [local instance (2000)] instPowNat

/-! ### Spellings -/

/-- The spellings of null. -/
def isNullText (s : String) : Bool := ["null", "Null", "NULL", "~"].contains s

/-- The truth value of a spelling. -/
def boolOfText? (s : String) : Option Bool :=
  if ["true", "True", "TRUE"].contains s then some true
  else if ["false", "False", "FALSE"].contains s then some false
  else none

/-- Digits with a zero in front of others are text and no number. -/
def isPaddedDigits (cs : List Char) : Bool :=
  let unsigned :=
    match cs with
    | '-' :: rest | '+' :: rest => rest
    | _ => cs
  1 < unsigned.length && unsigned.head? == some '0' && unsigned.all Char.isDigit

/-- The natural number of digits in a base. -/
def natInBase? (base : Nat) (digits : List Char) : Option Nat :=
  if digits.isEmpty then none
  else
    digits.foldlM (fun n c => do
      let v ← Quoted.hexValue? c
      if v < base then some (n * base + v) else none) 0

/-- The bases that a zero and a letter announce. -/
def baseOf? : Char → Option Nat
  | 'x' => some 16
  | 'o' => some 8
  | 'b' => some 2
  | _ => none

/-- A natural number with a plus sign or none, in decimal or in an announced base. -/
def natOfText? (cs : List Char) : Option Nat :=
  let unsigned := if cs.head? == some '+' then cs.drop 1 else cs
  let based :=
    match unsigned with
    | '0' :: c :: digits => (baseOf? c).bind (natInBase? · digits)
    | _ => none
  match based with
  | some n => some n
  | none => if isPaddedDigits cs then none else natInBase? 10 unsigned

/-- A number with a minus sign, by its magnitude. -/
def negativeOfText? (cs : List Char) : Option Nat :=
  match cs with
  | '-' :: unsigned =>
    let based :=
      match unsigned with
      | '0' :: c :: digits => (baseOf? c).bind (natInBase? · digits)
      | _ => none
    match based with
    | some n => some n
    | none => if isPaddedDigits cs then none else natInBase? 10 unsigned
  | _ => none

/-- An integer. Those that do not fit in 128 bits are none. -/
def integer? (cs : List Char) : Option Int :=
  match natOfText? cs, negativeOfText? cs with
  | some n, _ => if n < 2 ^ (128 : Nat) then some n else none
  | none, some n => if n ≤ 2 ^ (127 : Nat) then some (-(n : Int)) else none
  | none, none => none

/-- The exponent of a decimal. -/
def exponent? (cs : List Char) : Option Int :=
  let (negative, digits) :=
    match cs with
    | '+' :: rest => (false, rest)
    | '-' :: rest => (true, rest)
    | _ => (false, cs)
  if digits.all Char.isDigit then
    (natInBase? 10 digits).map fun n => if negative then -(n : Int) else n
  else none

/-- A decimal without a sign: digits with a point somewhere among them, and perhaps an exponent. -/
def decimal? (negative : Bool) (cs : List Char) : Option Decimal :=
  let whole := cs.takeWhile Char.isDigit
  let rest := cs.dropWhile Char.isDigit
  let (fraction, rest) :=
    if rest.head? == some '.' then
      ((rest.drop 1).takeWhile Char.isDigit, (rest.drop 1).dropWhile Char.isDigit)
    else ([], rest)
  match natInBase? 10 (whole ++ fraction) with
  | none => none
  | some digits =>
    let places := (fraction.length : Int)
    match rest with
    | [] => some ⟨negative, digits, -places⟩
    | 'e' :: cs | 'E' :: cs => (exponent? cs).map fun e => ⟨negative, digits, e - places⟩
    | _ => none

/-- A real number. A decimal beyond every double is none. -/
def real? (cs : List Char) : Option Extended :=
  let s := String.ofList cs
  let unsigned := if cs.head? == some '+' then cs.drop 1 else cs
  let t := String.ofList unsigned
  if [".inf", ".Inf", ".INF"].contains t then some (.infinity false)
  else if ["-.inf", "-.Inf", "-.INF"].contains s then some (.infinity true)
  else if [".nan", ".NaN", ".NAN"].contains s then some .nan
  else
    let d :=
      match unsigned with
      | '-' :: rest => if cs.head? == some '+' then none else decimal? true rest
      | _ => decimal? false unsigned
    d.bind fun d => d.nearest?.map .finite

/-! ### Types -/

/-- The datum of an integer; those that do not fit in 64 bits cannot be read. -/
def integerDatum (n : Int) : Datum :=
  match Number.ofInt? n with
  | some m => .number m
  | none => .unreadable

/-- The datum of a real. -/
def realDatum : Extended → Datum
  | .finite x => .number (.double x)
  | .infinity negative => .infinity negative
  | .nan => .nan

/-- The type of a plain scalar without a tag. -/
def plainDatum (s : String) : Datum :=
  let cs := s.toList
  if s == "" || isNullText s then .null
  else
    match boolOfText? s, integer? cs with
    | some b, _ => .bool b
    | none, some n => integerDatum n
    | none, none =>
      match if isPaddedDigits cs then none else real? cs with
      | some x => realDatum x
      | none => .string s

/-- The name of a standard tag. -/
def standardTag (name : String) : String := "tag:yaml.org,2002:" ++ name

/-- The name after the exclamation mark of a tag that is local to a document. -/
def localTag? (tag : Option String) : Option String :=
  tag.bind fun t =>
    match t.toList with
    | ['!'] => some "!"
    | '!' :: rest => some (String.ofList rest)
    | _ => none

namespace Scalar

/-- The typed scalar. A local tag, or a text that its tag does not allow, cannot be read. -/
def datum (s : Scalar) : Datum :=
  match s.tag with
  | none => if s.style = .plain then plainDatum s.text else .string s.text
  | some tag =>
    if (localTag? s.tag).isSome then .unreadable
    else if tag == standardTag "bool" then ((boolOfText? s.text).map .bool).getD .unreadable
    else if tag == standardTag "int" then
      ((integer? s.text.toList).map integerDatum).getD .unreadable
    else if tag == standardTag "float" then
      ((real? s.text.toList).map realDatum).getD .unreadable
    else if tag == standardTag "null" then if isNullText s.text then .null else .unreadable
    else .string s.text

/-- Whether the scalar says nothing where something may be left out; nothing, if it cannot be read
there. -/
def isAbsent? (s : Scalar) : Option Bool :=
  if s.style ≠ .plain then some false
  else
    match s.tag with
    | none => some (s.text == "" || isNullText s.text)
    | some tag =>
      if tag == standardTag "null" then if isNullText s.text then some true else none
      else some false

/-- Whether the scalar is the empty plain one, with any tag. -/
def isEmptyPlain (s : Scalar) : Bool := s.style == .plain && s.text == ""

/-- A natural number below a bound, which is written plainly, or as a literal block tagged as an
integer. -/
def natBelow? (bound : Nat) (s : Scalar) : Option Nat :=
  if s.style == .plain || (s.style == .literal && s.tag == some (standardTag "int")) then
    (natOfText? s.text.toList).filter (· < bound)
  else none

end Scalar

end Telltale.Yaml
