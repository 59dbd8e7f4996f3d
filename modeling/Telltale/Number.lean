import Telltale.Decimal

/-!
# Numbers of values

A number in a value keeps the kind in which it was written: an integer that fits in 64 bits, signed
or unsigned, or a double. The kinds meet in `Number.toDouble`, by which numbers are compared.

* `Number.sameKindAndValue` is the strict equality that holds inside lists and objects.
* `Number.flagWord?` reads a number as a word of 64 flags.
-/

namespace Telltale

-- the powers of the core library, whatever else is in scope
attribute [local instance (2000)] instPowNat

/-- The integers that a number can hold exactly: from -2^63 up to, not including, 2^64. -/
def Number.InRange (n : Int) : Prop := -(2 ^ (63 : Nat)) ≤ n ∧ n < 2 ^ (64 : Nat)

instance (n : Int) : Decidable (Number.InRange n) := inferInstanceAs (Decidable (_ ∧ _))

/-- A number: an integer in range, or a finite double. -/
inductive Number where
  | integer (n : Int) (inRange : Number.InRange n)
  | double (x : Double)
  deriving DecidableEq

namespace Number

/-- The integer as a number, if it is in range. -/
def ofInt? (n : Int) : Option Number :=
  if h : InRange n then some (.integer n h) else none

/-- Zero, as an integer. -/
def zero : Number := .integer 0 (by decide)

/-- One, as an integer. -/
def one : Number := .integer 1 (by decide)

/-- The nearest double. -/
def toDouble : Number → Double
  | .integer n _ => Double.ofInt n
  | .double x => x

/-- The finite number of a real, if it is finite. -/
def ofExtended? (x : Extended) : Option Number := x.toDouble?.map .double

/-! ### Order and equality -/

/-- Order by the nearest doubles. -/
def compareTo (a b : Number) : Ordering := a.toDouble.compareTo b.toDouble

/-- Equality by the nearest doubles, so that `1` and `1.0` are equal. -/
def sameValue (a b : Number) : Bool := a.toDouble.sameValue b.toDouble

/-- Equality of numbers written in the same kind. -/
def sameKindAndValue : Number → Number → Bool
  | .integer m _, .integer n _ => m == n
  | .double x, .double y => x.sameValue y
  | _, _ => false

/-! ### Other readings -/

/-- The compact text: integers in plain digits, doubles by their shortest digits. -/
def text : Number → String
  | .integer n _ => toString n
  | .double x => Layout.compact.write x

/-- The text under which a number is looked up in a table: whole numbers have no fraction, and no
number has an exponent. -/
def key : Number → String
  | .integer n _ => toString n
  | .double x =>
    if x.isWhole && x.magnitude < 10 ^ (15 : Nat) * Double.unitsPerOne then toString x.truncate
    else Layout.plain.write x

/-- The number as a word of flags. A negative integer stands for its bits in two's complement; a
double has to be whole and between zero and 2^64, where 2^64 itself counts as all bits set. -/
def flagWord? : Number → Option (BitVec 64)
  | .integer n _ => some (BitVec.ofInt 64 n)
  | .double x =>
    if 0 ≤ x.units && x.isWhole && x.magnitude ≤ 2 ^ (64 : Nat) * Double.unitsPerOne then
      some (BitVec.ofNat 64 (min x.truncate.toNat (2 ^ (64 : Nat) - 1)))
    else none

end Number

end Telltale
