import Telltale.Text.Blank
import Telltale.Text.Digits
import Telltale.Timestamp
import Telltale.Timestamp.Calendar

/-!
# Timestamps as text

The date, the time of day and the distance to universal time, in the order of RFC 3339.

* `Timestamp.ofText?` reads timestamps leniently: numbers may lack leading zeros, years may have a
  sign and more digits, and blanks may stand before most parts.
* `Timestamp.ofStrictText?` wants every number at its full width and no blanks.
* `Timestamp.text`, `Timestamp.offsetText` and `Timestamp.clock` write them.
-/

namespace Telltale.Timestamp

open Text (dropBlanks natOfDigits)

-- the powers of the core library, whatever else is in scope
attribute [local instance (2000)] instPowNat

/-! ### Reading parts -/

/-- A reading of the characters in front, which leaves the others. -/
abbrev Scan (α : Type) := StateT (List Char) Option α

namespace Scan

/-- Passes over blanks. -/
def blanks : Scan Unit := modify dropBlanks

/-- The next character, if it satisfies a test. -/
def charOf (test : Char → Bool) : Scan Char := do
  match ← get with
  | c :: rest => if test c then set rest; pure c else failure
  | [] => failure

/-- The given character. -/
def literal (c : Char) : Scan Unit := do let _ ← charOf (· == c)

/-- A number of at least one digit and at most `most`, where at least `least` are needed. -/
def number (least most : Nat) : Scan Nat := do
  let cs ← get
  let digits := (cs.take most).takeWhile Char.isDigit
  if digits.length < least then failure
  set (cs.drop digits.length)
  pure (natOfDigits digits)

/-- A number in a range. -/
def within (low high : Nat) (read : Scan Nat) : Scan Nat := do
  let n ← read
  if low ≤ n ∧ n ≤ high then pure n else failure

/-- A year: four digits at most, or a sign and any number of digits. -/
def year : Scan Int := do
  let cs ← get
  match cs with
  | '-' :: rest => set rest; return -(← number 1 rest.length : Nat)
  | '+' :: rest => set rest; return (← number 1 rest.length : Nat)
  | _ => return (← number 1 4 : Nat)

/-- The nanoseconds after a point, if there is one. Digits after the ninth are dropped. -/
def fraction : Scan Nat := do
  match ← get with
  | '.' :: rest =>
    let digits := rest.takeWhile Char.isDigit
    if digits.isEmpty then failure
    set (rest.drop digits.length)
    let kept := digits.take 9
    pure (natOfDigits kept * 10 ^ (9 - kept.length))
  | _ => pure 0

/-- The distance to universal time, in seconds: a `Z`, or a sign with hours and minutes that the
given reading stands between. -/
def offset (between : Scan Unit) : Scan Int := do
  let sign ← charOf fun c => ['Z', 'z', '+', '-', '−'].contains c
  if sign == 'Z' || sign == 'z' then return 0
  let hours ← number 2 2
  between
  let minutes ← within 0 59 (number 2 2)
  let seconds : Int := (hours * 60 + minutes) * 60
  return if sign == '+' then seconds else -seconds

end Scan

open Scan

/-! ### Building -/

/-- The seconds of a day at an hour, a minute and a second. -/
def clockSeconds (hour minute second : Nat) : Nat := (hour * 60 + minute) * 60 + second

/-- The first second after all that have timestamps. -/
def endSeconds : Int := ((Date.mk Date.lastYear 12 31).toDay + 1) * secondsPerDay

/-- The first second that has timestamps. -/
def startSeconds : Int := (Date.mk Date.firstYear 1 1).toDay * secondsPerDay

/-- The moment of a local date and time at a distance to universal time. The sixtieth second is the
leap second of any minute. -/
def ofLocal? (date : Date) (hour minute second nanos : Nat) (offset : Int) : Option Timestamp :=
  let leap := second = 60
  let clock := clockSeconds hour minute (if leap then 59 else second)
  let seconds := date.toDay * secondsPerDay + clock - offset
  let nanos := if leap then nanos + nanosPerSecond else nanos
  if date.isValid && offset.natAbs < secondsPerDay && startSeconds ≤ seconds && seconds < endSeconds
  then some ⟨seconds, nanos⟩ else none

/-! ### Reading -/

/-- What stands between a date and a time. -/
def isDateEnd (c : Char) : Bool := c == 'T' || c == 't' || c == ' '

/-- A number of one or two digits after blanks, in a range. -/
def loose (low high : Nat) : Scan Nat := do blanks; within low high (number 1 2)

/-- The name of universal time in place of a distance to it. -/
def isUniversal (cs : List Char) : Bool := (cs.take 3).map Char.toUpper == ['U', 'T', 'C']

/-- The distance to universal time, in the lenient form. -/
def looseOffset : Scan Int := do
  blanks
  let cs ← get
  if isUniversal cs then set (cs.drop 3); return 0
  offset (modify fun cs => cs.dropWhile fun c => c == ':' || Text.isBlank c)

/-- A timestamp in the lenient form. -/
def looseTimestamp : Scan Timestamp := do
  blanks
  let y ← year
  blanks; literal '-'
  let m ← loose 1 12
  blanks; literal '-'
  let d ← loose 1 31
  let _ ← charOf isDateEnd
  let hour ← loose 0 23
  blanks; literal ':'
  let minute ← loose 0 59
  blanks; literal ':'
  let second ← loose 0 60
  let nanos ← fraction
  let shift ← looseOffset
  blanks
  ofLocal? ⟨y, m, d⟩ hour minute second nanos shift

/-- A number of two digits, in a range. -/
def strict (low high : Nat) : Scan Nat := within low high (number 2 2)

/-- A timestamp in the strict form. -/
def strictTimestamp : Scan Timestamp := do
  let y ← number 4 4
  literal '-'
  let m ← strict 1 12
  literal '-'
  let d ← strict 1 31
  let _ ← charOf isDateEnd
  let hour ← strict 0 23
  literal ':'
  let minute ← strict 0 59
  literal ':'
  let second ← strict 0 60
  let nanos ← fraction
  let shift ← offset (literal ':')
  ofLocal? ⟨y, m, d⟩ hour minute second nanos shift

/-- What a reading makes of a whole text. -/
def readAll? (read : Scan α) (s : String) : Option α :=
  match read s.toList with
  | some (a, []) => some a
  | _ => none

/-- The timestamp of a text, read leniently. -/
def ofText? (s : String) : Option Timestamp := readAll? looseTimestamp s

/-- The timestamp of a text, read strictly. -/
def ofStrictText? (s : String) : Option Timestamp := readAll? strictTimestamp s

/-! ### Writing -/

/-- A natural number with zeros in front up to a width. -/
def padded (width n : Nat) : String :=
  let digits := toString n
  String.ofList (List.replicate (width - digits.length) '0') ++ digits

/-- A year: four digits, or a sign and at least four of them outside the years 0 to 9999. -/
def yearText (year : Int) : String :=
  if 0 ≤ year ∧ year ≤ 9999 then padded 4 year.toNat
  else (if year < 0 then "-" else "+") ++ padded 4 year.natAbs

/-- The date in universal time. -/
def date (t : Timestamp) : Date := Date.ofDay (t.seconds / secondsPerDay)

/-- The second of the minute, sixty in a leap second. -/
def secondOfMinute (t : Timestamp) : Nat := t.timeOfDay.toNat % 60 + if t.isLeap then 1 else 0

/-- The nanoseconds of the second. -/
def nanosOfSecond (t : Timestamp) : Nat := if t.isLeap then t.nanos - nanosPerSecond else t.nanos

/-- The hour, the minute and the second. -/
def clock (t : Timestamp) : String :=
  let time := t.timeOfDay.toNat
  padded 2 (time / 3600) ++ ":" ++ padded 2 (time / 60 % 60) ++ ":" ++ padded 2 t.secondOfMinute

/-- A fraction of a second: none, or the fewest of three, six or nine digits that are exact. -/
def fractionText (nanos : Nat) : String :=
  if nanos = 0 then ""
  else if nanos % 1000000 = 0 then "." ++ padded 3 (nanos / 1000000)
  else if nanos % 1000 = 0 then "." ++ padded 6 (nanos / 1000)
  else "." ++ padded 9 nanos

/-- The date and the time, in universal time. -/
def dateTime (t : Timestamp) : String :=
  let d := t.date
  yearText d.year ++ "-" ++ padded 2 d.month ++ "-" ++ padded 2 d.day ++ "T" ++ t.clock ++
    fractionText t.nanosOfSecond

/-- The text with a `Z` for universal time. -/
def text (t : Timestamp) : String := t.dateTime ++ "Z"

/-- The text with the distance to universal time in figures. -/
def offsetText (t : Timestamp) : String := t.dateTime ++ "+00:00"

end Telltale.Timestamp
