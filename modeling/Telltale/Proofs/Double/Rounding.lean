import Telltale.Double

/-!
# Rounding keeps bounds

A quotient that reaches the magnitude of a double still reaches it once it is rounded.

* `Double.le_roundUnits` — so it is for magnitudes in units.
* `Double.le_units_nearest`, `Double.le_units_ofInt`, `Double.le_units_div?` — and for the doubles
  that are built from them.
* `Double.fits_mul_unitsPerOne` — the magnitudes that this is used for are those of whole numbers.
-/

namespace Telltale.Double

-- the powers of the core library, whatever else is in scope
attribute [local instance (2000)] instPowNat

/-! ## Magnitudes -/

theorem log2_le_log2 {m n : Nat} (h : m ≤ n) : m.log2 ≤ n.log2 := by
  by_cases hm : m = 0
  · rw [hm]
    exact Nat.zero_le _
  · have hn : n ≠ 0 := by omega
    exact (Nat.le_log2 hn).mpr (Nat.le_trans (Nat.log2_self_le hm) h)

/-- The multiple of the spacing below a number reaches every magnitude of a double that the number
reaches. -/
theorem le_div_mul_spacing {k q : Nat} (hk : Fits k) (hle : k ≤ q) :
    k ≤ q / spacing q * spacing q := by
  have hpos : 0 < spacing q := Nat.two_pow_pos _
  have below (m : Nat) (hdvd : spacing q ∣ m) (hm : m ≤ q) : m ≤ q / spacing q * spacing q := by
    obtain ⟨j, rfl⟩ := hdvd
    rw [Nat.mul_comm (spacing q) j]
    refine Nat.mul_le_mul_right _ ((Nat.le_div_iff_mul_le hpos).mpr ?_)
    rwa [Nat.mul_comm]
  rcases Nat.lt_or_eq_of_le (log2_le_log2 hle) with hlt | heq
  -- a magnitude with fewer digits is below the power of two that the number begins with
  · have hq : q ≠ 0 := by
      rintro rfl
      rw [Nat.log2_zero] at hlt
      omega
    have hpow : 2 ^ q.log2 ≤ q / spacing q * spacing q :=
      below _ (Nat.pow_dvd_pow 2 (Nat.sub_le _ _)) (Nat.log2_self_le hq)
    refine Nat.le_trans (Nat.le_of_lt ?_) hpow
    exact Nat.lt_of_lt_of_le Nat.lt_log2_self (Nat.pow_le_pow_right (by decide) hlt)
  · refine below k ?_ hle
    rw [spacing, ← heq]
    exact hk.1

/-- A rounded quotient reaches every magnitude of a double that the quotient reaches. -/
theorem le_roundUnits {k num den : Nat} (hk : Fits k) (hden : 0 < den) (hle : k * den ≤ num) :
    k ≤ roundUnits num den := by
  have hquotient : k ≤ num / den := (Nat.le_div_iff_mul_le hden).mpr hle
  have hbelow : k ≤ num / (spacing (num / den) * den) * spacing (num / den) := by
    rw [Nat.mul_comm (spacing (num / den)) den, ← Nat.div_div_eq_div_mul]
    exact le_div_mul_spacing hk hquotient
  refine Nat.le_trans hbelow ?_
  unfold roundUnits
  simp only
  split
  · exact Nat.mul_le_mul_right _ (Nat.le_succ _)
  · exact Nat.le_refl _

/-- A small whole number is a double. -/
theorem fits_mul_unitsPerOne {n : Nat} (hn : n ≤ 2 ^ (53 : Nat)) : Fits (n * unitsPerOne) := by
  refine ⟨spacing_dvd_mul hn, ?_⟩
  have hlt : unitsPerOne < 2 ^ topExponent := by
    unfold unitsPerOne
    refine Nat.pow_lt_pow_right (by decide) ?_
    unfold unitExponent topExponent
    decide
  calc n * unitsPerOne ≤ 2 ^ (53 : Nat) * unitsPerOne := Nat.mul_le_mul_right _ hn
    _ < 2 ^ (53 : Nat) * 2 ^ topExponent := Nat.mul_lt_mul_of_pos_left hlt (Nat.two_pow_pos _)

/-- A small whole number is below the largest double. -/
theorem mul_unitsPerOne_le_largestUnits {n : Nat} (hn : n < 2 ^ (53 : Nat)) :
    n * unitsPerOne ≤ largestUnits := by
  have hle : unitsPerOne ≤ 2 ^ topExponent := by
    unfold unitsPerOne
    refine Nat.pow_le_pow_right (by decide) ?_
    unfold unitExponent topExponent
    decide
  exact Nat.mul_le_mul (Nat.le_sub_one_of_lt hn) hle

/-! ## Doubles -/

theorem units_ofMagnitude_false (n : Nat) (h : Fits n) : (ofMagnitude false n h).units = n := rfl

/-- The double nearest to a quotient reaches every double that the quotient reaches. -/
theorem le_units_nearest {k num den : Nat} (hk : Fits k) (hlargest : k ≤ largestUnits)
    (hden : 0 < den) (hle : k * den ≤ num) : (k : Int) ≤ (nearest false num den).units := by
  unfold nearest
  split
  · rw [units_ofMagnitude_false]
    exact Int.ofNat_le.mpr (le_roundUnits hk hden hle)
  · rw [units_ofMagnitude_false]
    exact Int.ofNat_le.mpr hlargest

theorem isNegative_nearest_false (num den : Nat) : (nearest false num den).isNegative = false := by
  unfold nearest isNegative
  split <;> simp [ofMagnitude]

/-- The double nearest to an integer reaches every small whole number that the integer reaches. -/
theorem le_units_ofInt {n : Nat} (hn : n < 2 ^ (53 : Nat)) {m : Int} (h : n ≤ m) :
    ((n * unitsPerOne : Nat) : Int) ≤ (ofInt m).units ∧ (ofInt m).isNegative = false := by
  have hsign : decide (m < 0) = false := decide_eq_false (by omega)
  have hle : n * unitsPerOne * 1 ≤ m.natAbs * unitsPerOne := by
    rw [Nat.mul_one]
    exact Nat.mul_le_mul_right _ (by omega)
  rw [ofInt, hsign]
  exact ⟨le_units_nearest (fits_mul_unitsPerOne (Nat.le_of_lt hn))
    (mul_unitsPerOne_le_largestUnits hn) Nat.one_pos hle, isNegative_nearest_false _ _⟩

/-- A quotient of doubles that are not negative reaches every double that it reaches exactly. -/
theorem le_units_div? {x y z : Double} (hx : x.isNegative = false) (hy : y.isNegative = false)
    (h : x.div? y = some z) {k : Nat} (hk : Fits k) (hlargest : k ≤ largestUnits)
    (hle : k * y.magnitude ≤ x.magnitude * unitsPerOne) : (k : Int) ≤ z.units := by
  unfold div? quotientUnits at h
  simp only at h
  split at h
  · cases h
  · next hsmall =>
    cases h
    rw [Bool.or_eq_true, not_or] at hsmall
    have hden : 0 < y.magnitude := by
      have hzero : y.units ≠ 0 := by simpa [isZero] using hsmall.1
      unfold magnitude
      omega
    rw [hx, hy]
    exact le_units_nearest hk hlargest hden hle

end Telltale.Double
