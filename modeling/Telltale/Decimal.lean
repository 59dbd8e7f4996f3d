import Telltale.Double

/-!
# Decimals and doubles

How a decimal is read as a double, and which decimal stands for a double.

* `Decimal.nearest?` reads a decimal with one rounding: the nearest double, ties to even.
* `Decimal.scaled?` reads it as JSON text does here, with a rounding of the digits and another one
  for every factor that is a power of ten; the two readings can differ in the last binary digit.
* `Decimal.shortest` goes back: the fewest digits that `nearest?` reads as the same double, and of
  two such decimals the nearer one.
* `Layout` is how digits are laid out as text; the records are `Layout.compact`, the form of a
  number in a JSON value, and `Layout.plain`, which never writes an exponent.
-/

namespace Telltale

-- the powers of the core library, whatever else is in scope
attribute [local instance (2000)] instPowNat

/-- The number `digits * 10 ^ exponent` with a sign. -/
structure Decimal where
  negative : Bool
  digits : Nat
  exponent : Int
  deriving DecidableEq

namespace Decimal

/-! ### Reading -/

/-- The magnitude as a quotient of units. -/
def quotient (d : Decimal) : Nat × Nat :=
  if 0 ≤ d.exponent then (d.digits * 10 ^ d.exponent.toNat * Double.unitsPerOne, 1)
  else (d.digits * Double.unitsPerOne, 10 ^ (-d.exponent).toNat)

/-- The number of decimal digits. -/
def digitCount (n : Nat) : Nat := (Nat.toDigits 10 n).length

/-- The nearest double, unless the decimal lies beyond every double. Decimals of ten to the 310 and
more are beyond, and those below ten to the -330 are nearest to zero, so their powers are never
computed. -/
def nearest? (d : Decimal) : Option Double :=
  if d.digits = 0 then some (Double.nearest d.negative 0 1)
  else if 310 < digitCount d.digits + d.exponent then none
  else if digitCount d.digits + d.exponent < -330 then some (Double.nearest d.negative 0 1)
  else
    let (num, den) := d.quotient
    if Double.overflows num den then none else some (Double.nearest d.negative num den)

/-- The double nearest to ten to the power `n`, for `n` at most 308. -/
def powerOfTen (n : Nat) : Double := Double.nearest false (10 ^ n * Double.unitsPerOne) 1

/-- The powers by which a division by ten to the power `n` is done, at most 308 at a time. Beyond
616 the digits of a 64-bit word have already become zero. -/
def divisors (n : Nat) : List Nat :=
  if n ≤ 308 then [n] else if n ≤ 616 then [308, n - 308] else [308, 308]

/-- Division by ten to the power `n`, with a rounding for each divisor. -/
def divideByPower? (x : Double) (n : Nat) : Option Double :=
  (divisors n).foldlM (fun y k => y.div? (powerOfTen k)) x

/-- The double that the digits, rounded first, give when multiplied or divided by the power of ten,
rounded again; no double if a product lies beyond every double. -/
def scaled? (d : Decimal) : Option Double :=
  let x := Double.nearest d.negative (d.digits * Double.unitsPerOne) 1
  if d.exponent < 0 then divideByPower? x (-d.exponent).toNat
  else if d.exponent ≤ 308 then x.mul? (powerOfTen d.exponent.toNat)
  else if x.isZero then some x
  else none

/-! ### The shortest decimal of a double -/

/-- Whether the nearest double of `c * 10 ^ e` has `units` units. -/
def readsBack (units c : Nat) (e : Int) : Bool :=
  let (num, den) := quotient ⟨false, c, e⟩
  Double.roundUnits num den == units

/-- Of the two neighbours of the value on the grid of decimals with `n` digits, the nearest one that
reads back. The value is `scaled * 10 ^ -340` up to a part too small to matter, and `count` is the
number of digits of `scaled`. -/
def onGrid? (units scaled count n : Nat) : Option (Nat × Int) :=
  let power := 10 ^ (count - n)
  let below := scaled / power
  let e : Int := (count : Int) - n - 340
  let lower := readsBack units below e
  let upper := readsBack units (below + 1) e
  if lower && (!upper || 2 * (scaled % power) < power) then some (below, e)
  else if upper then some (below + 1, e)
  else none

/-- The digits and the power of ten of the shortest decimal that reads back as the positive double
of `units` units; seventeen digits always suffice. -/
def shortest (units : Nat) : Nat × Int :=
  let scaled := units * 10 ^ (340 : Nat) / Double.unitsPerOne
  let count := digitCount scaled
  ((List.range 17).findSome? fun n => onGrid? units scaled count (n + 1)).getD (scaled, -340)

end Decimal

/-! ### Layout -/

/-- How the digits of a number become text. `positional` says for which places of the decimal point
(counted from the first digit) no exponent is written, and `whole` ends a whole number. -/
structure Layout where
  positional : Int → Bool
  whole : String

namespace Layout

/-- Compact JSON writes a point from 1e-5 up to 1e16 and always a fraction digit there; other
numbers have one digit before the point and a signed exponent. -/
def compact : Layout := ⟨fun point => -4 ≤ point && point ≤ 16, ".0"⟩

/-- The plain form has no exponent and no fraction for whole numbers. -/
def plain : Layout := ⟨fun _ => true, ""⟩

/-- Digits with the decimal point after the first `point` of them. -/
def placed (layout : Layout) (digits : List Char) (point : Int) : String :=
  if point ≤ 0 then
    "0." ++ String.ofList (List.replicate (-point).toNat '0' ++ digits)
  else if digits.length ≤ point.toNat then
    String.ofList (digits ++ List.replicate (point.toNat - digits.length) '0') ++ layout.whole
  else
    String.ofList (digits.take point.toNat) ++ "." ++ String.ofList (digits.drop point.toNat)

/-- One digit before the point, and the exponent with its sign. -/
def scientific (digits : List Char) (point : Int) : String :=
  let fraction := if digits.length ≤ 1 then "" else "." ++ String.ofList (digits.drop 1)
  let sign := if point - 1 < 0 then "-" else "+"
  String.ofList (digits.take 1) ++ fraction ++ "e" ++ sign ++ toString (point - 1).natAbs

/-- The text of a double. -/
def write (layout : Layout) (x : Double) : String :=
  let sign := if x.isNegative then "-" else ""
  if x.isZero then sign ++ "0" ++ layout.whole
  else
    let (digits, exponent) := Decimal.shortest x.magnitude
    let all := Nat.toDigits 10 digits
    let kept := (all.reverse.dropWhile (· == '0')).reverse
    let point := (all.length : Int) + exponent
    sign ++ (if layout.positional point then layout.placed kept point else scientific kept point)

end Layout

end Telltale
