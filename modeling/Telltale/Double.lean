/-!
# Finite doubles, exactly

Every finite double is a whole number of units of `2 ^ -1074`. The type below stores that number,
so that order, equality and sums are those of integers, and each operation that leaves the grid of
doubles is one exact quotient followed by one rounding to the nearest double, ties to the even one.

* `Double.roundUnits` rounds a quotient of naturals to the grid; `Double.fits_roundUnits` says that
  the result is the magnitude of a double unless it is too large.
* `Double.nearest` builds the double; a quotient beyond the largest double stays at the largest,
  and `Double.overflows` tells the two cases apart.
* `Extended` adds the values that are not finite, which only some documents can write.
-/

namespace Telltale

-- the powers of the core library, whatever else is in scope
attribute [local instance (2000)] instPowNat

/-- The exponent of the unit `2 ^ -1074`, without its sign. -/
@[irreducible] def Double.unitExponent : Nat := 1074

/-- The exponent, in units, of the spacing of the largest doubles. -/
@[irreducible] def Double.topExponent : Nat := 2045

/-- The number of units in one. -/
def Double.unitsPerOne : Nat := 2 ^ Double.unitExponent

/-- The first magnitude, in units, that is too large for a double: `2 ^ 1024`. -/
def Double.limit : Nat := 2 ^ (53 : Nat) * 2 ^ Double.topExponent

/-- A magnitude of `n` units is a double's when its binary digits after the first 53 are zeros and
it lies below the limit. -/
def Double.Fits (n : Nat) : Prop := 2 ^ (n.log2 - 52) ∣ n ∧ n < Double.limit

instance (n : Nat) : Decidable (Double.Fits n) := inferInstanceAs (Decidable (_ ∧ _))

/-- A finite double: its value in units of `2 ^ -1074`, and whether a zero carries a minus sign. -/
structure Double where
  units : Int
  negativeZero : Bool
  fits : Double.Fits units.natAbs
  zero : negativeZero = true → units = 0
  deriving DecidableEq

namespace Double

/-! ### Rounding -/

/-- The distance between neighbouring doubles around `n` units, as a power of two. -/
def spacing (n : Nat) : Nat := 2 ^ (n.log2 - 52)

/-- The quotient `num / den` in units, rounded to the nearest multiple of the spacing at its
magnitude; a quotient half way between two multiples goes to the even one. -/
def roundUnits (num den : Nat) : Nat :=
  let step := spacing (num / den)
  let below := num / (step * den)
  let rest := num % (step * den)
  if step * den < 2 * rest ∨ (2 * rest = step * den ∧ below % 2 = 1) then (below + 1) * step
  else below * step

/-- A multiple of a power of two with a factor of at most 53 binary digits has the digits of a
double. -/
theorem spacing_dvd_mul {k s : Nat} (hk : k ≤ 2 ^ (53 : Nat)) :
    2 ^ ((k * 2 ^ s).log2 - 52) ∣ k * 2 ^ s := by
  rcases Nat.lt_or_ge k (2 ^ (53 : Nat)) with h | h
  · by_cases hz : k * 2 ^ s = 0
    · rw [hz]; exact Nat.dvd_zero _
    have hlt : k * 2 ^ s < 2 ^ (53 + s) := by
      rw [Nat.pow_add]; exact Nat.mul_lt_mul_of_pos_right h (Nat.two_pow_pos s)
    have hlog := (Nat.log2_lt hz).2 hlt
    exact Nat.dvd_trans (Nat.pow_dvd_pow 2 (by omega)) (Nat.dvd_mul_left _ _)
  · have hk' : k = 2 ^ (53 : Nat) := by omega
    rw [hk', ← Nat.pow_add, Nat.log2_two_pow]
    exact Nat.pow_dvd_pow 2 (by omega)

/-- The factor of the spacing that lies below a quotient has at most 53 binary digits. -/
theorem div_spacing_lt (num den : Nat) :
    num / (spacing (num / den) * den) < 2 ^ (53 : Nat) := by
  rw [Nat.mul_comm, ← Nat.div_div_eq_div_mul]
  refine (Nat.div_lt_iff_lt_mul (Nat.two_pow_pos _)).2 ?_
  show _ < 2 ^ (53 : Nat) * 2 ^ _
  rw [← Nat.pow_add]
  exact Nat.lt_of_lt_of_le Nat.lt_log2_self (Nat.pow_le_pow_right (by decide) (by omega))

/-- A rounded quotient is a double's magnitude when it is small enough. -/
theorem fits_roundUnits (num den : Nat) (h : roundUnits num den < limit) :
    Fits (roundUnits num den) := by
  refine ⟨?_, h⟩
  have hlt := div_spacing_lt num den
  have key : ∃ k s, k ≤ 2 ^ (53 : Nat) ∧ roundUnits num den = k * 2 ^ s := by
    unfold roundUnits
    simp only
    split
    · exact ⟨_, _, hlt, rfl⟩
    · exact ⟨_, _, Nat.le_of_lt hlt, rfl⟩
  obtain ⟨k, s, hk, hr⟩ := key
  rw [hr]
  exact spacing_dvd_mul hk

/-! ### Building doubles -/

theorem fits_zero : Fits 0 :=
  ⟨Nat.dvd_zero _, Nat.mul_pos (Nat.two_pow_pos _) (Nat.two_pow_pos _)⟩

/-- Zero without a minus sign. -/
def posZero : Double := ⟨0, false, fits_zero, fun _ => rfl⟩

/-- The double of the given sign whose magnitude is `n` units. -/
def ofMagnitude (negative : Bool) (n : Nat) (h : Fits n) : Double where
  units := if negative then -(n : Int) else n
  negativeZero := negative && n == 0
  fits := by cases negative <;> simpa using h
  zero := by cases negative <;> simp

/-- The largest magnitude of a double, in units. -/
def largestUnits : Nat := (2 ^ (53 : Nat) - 1) * 2 ^ topExponent

theorem pred_mul_two_pow_lt (s : Nat) : (2 ^ (53 : Nat) - 1) * 2 ^ s < 2 ^ (53 : Nat) * 2 ^ s :=
  Nat.mul_lt_mul_of_pos_right (by decide) (Nat.two_pow_pos s)

theorem fits_largestUnits : Fits largestUnits :=
  ⟨spacing_dvd_mul (by decide), pred_mul_two_pow_lt _⟩

/-- Whether the quotient rounds to a magnitude beyond every double. -/
def overflows (num den : Nat) : Bool := decide (limit ≤ roundUnits num den)

/-- The double nearest to a signed quotient of units, or the largest one if the quotient lies
beyond it. -/
def nearest (negative : Bool) (num den : Nat) : Double :=
  if h : roundUnits num den < limit then ofMagnitude negative _ (fits_roundUnits num den h)
  else ofMagnitude negative largestUnits fits_largestUnits

/-- The double nearest to an integer. -/
def ofInt (n : Int) : Double := nearest (n < 0) (n.natAbs * unitsPerOne) 1

/-! ### Reading doubles -/

/-- Whether the double carries a minus sign, as only the text of a zero shows besides its order. -/
def isNegative (x : Double) : Bool := x.negativeZero || x.units < 0

/-- The number of units without the sign. -/
def magnitude (x : Double) : Nat := x.units.natAbs

/-- Whether the double is zero, with either sign. -/
def isZero (x : Double) : Bool := x.units == 0

/-- Whether the double is a whole number. -/
def isWhole (x : Double) : Bool := x.magnitude % unitsPerOne == 0

/-- The integer part, toward zero. -/
def truncate (x : Double) : Int := x.units.tdiv unitsPerOne

/-- Order by value; the two zeros are equal. -/
def compareTo (x y : Double) : Ordering := compare x.units y.units

/-- Equality by value; the two zeros are equal. -/
def sameValue (x y : Double) : Bool := x.units == y.units

/-- Less than or equal by value. -/
def atMost (x y : Double) : Bool := x.units ≤ y.units

/-! ### Arithmetic -/

/-- The double with the other sign. -/
def neg (x : Double) : Double := ofMagnitude (!x.isNegative) x.magnitude x.fits

/-- The product of the magnitudes, as a quotient of units. -/
def productUnits (x y : Double) : Nat × Nat := (x.magnitude * y.magnitude, unitsPerOne)

/-- The quotient of the magnitudes, as a quotient of units. -/
def quotientUnits (x y : Double) : Nat × Nat := (x.magnitude * unitsPerOne, y.magnitude)

/-- The product, unless it lies beyond every double. -/
def mul? (x y : Double) : Option Double :=
  let (num, den) := productUnits x y
  if overflows num den then none else some (nearest (x.isNegative != y.isNegative) num den)

/-- The quotient by a divisor that is not zero, unless it lies beyond every double. -/
def div? (x y : Double) : Option Double :=
  let (num, den) := quotientUnits x y
  if y.isZero || overflows num den then none
  else some (nearest (x.isNegative != y.isNegative) num den)

/-- The sum, unless it lies beyond every double. A sum of zero has a minus sign only if both
summands have one. -/
def add? (x y : Double) : Option Double :=
  let sum := x.units + y.units
  if overflows sum.natAbs 1 then none
  else some (nearest (sum < 0 || (x.negativeZero && y.negativeZero)) sum.natAbs 1)

end Double

/-! ### Values that are not finite -/

/-- A real number as a document can write it: a finite double, an infinity or no number. -/
inductive Extended where
  | finite (x : Double)
  | infinity (negative : Bool)
  | nan
  deriving DecidableEq

/-- The finite double, if it is one. -/
def Extended.toDouble? : Extended → Option Double
  | .finite x => some x
  | _ => none

/-- Less than or equal, where nothing compares with the value that is no number. -/
def Extended.atMost : Extended → Extended → Bool
  | .finite x, .finite y => x.atMost y
  | .infinity a, .infinity b => a || !b
  | .infinity negative, .finite _ => negative
  | .finite _, .infinity negative => !negative
  | .nan, _ => false
  | _, .nan => false

end Telltale
