import Telltale.Proofs.Double.Rounding

/-!
# Rounding keeps order

Rounding to the nearest double may bring different numbers together, but it never turns their order
around, and it leaves alone what is a double already.

* `Double.roundUnits_le` — a rounded quotient is no greater than a double that the quotient does not
  exceed; `Double.le_roundUnits` is the other half.
* `Double.roundUnits_mul`, `Double.roundUnits_mono` — so doubles stay as they are, and a greater
  quotient has no smaller double.
* `Double.ofInt_mono`, `Double.units_ofInt_of_small` — the same for integers of either sign: up to
  `2 ^ 53` each one is a double itself.
* `Double.nearest_magnitude` — a double is the one nearest to its own magnitude.
* `Double.units_div?`, `Double.exists_div?` — what a quotient is, and when there is one.
-/

namespace Telltale.Double

-- the powers of the core library, whatever else is in scope
attribute [local instance (2000)] instPowNat

/-! ## Magnitudes -/

theorem spacing_pos (n : Nat) : 0 < spacing n := Nat.two_pow_pos _

theorem unitsPerOne_pos : 0 < unitsPerOne := Nat.two_pow_pos _

/-- A magnitude with no more digits than a double has, at a place that is not too high. -/
theorem fits_mul_two_pow {k s : Nat} (hk : k ≤ 2 ^ (53 : Nat)) (hs : s < topExponent) :
    Fits (k * 2 ^ s) := by
  refine ⟨spacing_dvd_mul hk, ?_⟩
  calc k * 2 ^ s ≤ 2 ^ (53 : Nat) * 2 ^ s := Nat.mul_le_mul_right _ hk
    _ < 2 ^ (53 : Nat) * 2 ^ topExponent :=
      Nat.mul_lt_mul_of_pos_left (Nat.pow_lt_pow_right (by decide) hs) (Nat.two_pow_pos _)

/-- The spacing at a number divides every magnitude of a double that is no smaller. -/
theorem spacing_dvd {k q : Nat} (hk : 2 ^ (k.log2 - 52) ∣ k) (hle : q ≤ k) : spacing q ∣ k :=
  Nat.dvd_trans (Nat.pow_dvd_pow 2 (Nat.sub_le_sub_right (log2_le_log2 hle) 52)) hk

theorem div_mul_spacing_le_roundUnits (num den : Nat) :
    num / (spacing (num / den) * den) * spacing (num / den) ≤ roundUnits num den := by
  unfold roundUnits
  simp only
  split
  · exact Nat.mul_le_mul_right _ (Nat.le_succ _)
  · exact Nat.le_refl _

theorem roundUnits_le_succ_mul_spacing (num den : Nat) :
    roundUnits num den ≤ (num / (spacing (num / den) * den) + 1) * spacing (num / den) := by
  unfold roundUnits
  simp only
  split
  · exact Nat.le_refl _
  · exact Nat.mul_le_mul_right _ (Nat.le_succ _)

/-- A rounded quotient is no greater than a magnitude of a double that the quotient does not
exceed. -/
theorem roundUnits_le {k num den : Nat} (hk : 2 ^ (k.log2 - 52) ∣ k) (hden : 0 < den)
    (hle : num ≤ k * den) : roundUnits num den ≤ k := by
  have hquotient : num / den ≤ k := Nat.div_le_of_le_mul (by rwa [Nat.mul_comm])
  obtain ⟨j, hj⟩ := spacing_dvd hk hquotient
  have hstep : 0 < spacing (num / den) * den := Nat.mul_pos (spacing_pos _) hden
  have hnum : num ≤ j * (spacing (num / den) * den) := by
    rwa [← Nat.mul_assoc, Nat.mul_comm j, ← hj]
  have hsplit := Nat.div_add_mod num (spacing (num / den) * den)
  have hbelow : num / (spacing (num / den) * den) ≤ j := by
    rw [← Nat.mul_div_cancel j hstep]
    exact Nat.div_le_div_right hnum
  rw [hj, Nat.mul_comm _ j]
  unfold roundUnits
  simp only
  split
  -- what is rounded up was not a multiple of the spacing, and so below the double
  · next hup =>
    refine Nat.mul_le_mul_right _ (Nat.lt_of_le_of_ne hbelow fun heq => ?_)
    rw [heq, Nat.mul_comm] at hsplit
    omega
  · exact Nat.mul_le_mul_right _ hbelow

/-- What is the magnitude of a double already stays as it is. -/
theorem roundUnits_mul {k den : Nat} (hk : Fits k) (hden : 0 < den) :
    roundUnits (k * den) den = k :=
  Nat.le_antisymm (roundUnits_le hk.1 hden (Nat.le_refl _)) (le_roundUnits hk hden (Nat.le_refl _))

/-- Of two numbers with the same spacing, the smaller one is not rounded to a greater magnitude. -/
theorem roundUnits_mono_of_spacing_eq {m n den : Nat} (hden : 0 < den) (hle : m ≤ n)
    (hspacing : spacing (m / den) = spacing (n / den)) : roundUnits m den ≤ roundUnits n den := by
  have hstep : 0 < spacing (n / den) * den := Nat.mul_pos (spacing_pos _) hden
  rcases Nat.lt_or_eq_of_le (Nat.div_le_div_right (c := spacing (n / den) * den) hle) with hlt | heq
  · calc roundUnits m den
        ≤ (m / (spacing (m / den) * den) + 1) * spacing (m / den) :=
          roundUnits_le_succ_mul_spacing m den
      _ ≤ n / (spacing (n / den) * den) * spacing (n / den) := by
          rw [hspacing]
          exact Nat.mul_le_mul_right _ hlt
      _ ≤ roundUnits n den := div_mul_spacing_le_roundUnits n den
  -- with one multiple of the spacing below both, more rest is rounded up no less often
  · have hrest : m % (spacing (n / den) * den) ≤ n % (spacing (n / den) * den) := by
      have hm := Nat.div_add_mod m (spacing (n / den) * den)
      have hn := Nat.div_add_mod n (spacing (n / den) * den)
      rw [heq] at hm
      omega
    unfold roundUnits
    simp only [hspacing, heq]
    split
    · next hup => exact Nat.le_of_eq (if_pos (by omega)).symm
    · split
      · exact Nat.mul_le_mul_right _ (Nat.le_succ _)
      · exact Nat.le_refl _

/-- A greater quotient is not rounded to a smaller magnitude. -/
theorem roundUnits_mono {m n den : Nat} (hden : 0 < den) (hn : n < limit * den) (hle : m ≤ n) :
    roundUnits m den ≤ roundUnits n den := by
  have hquotient : m / den ≤ n / den := Nat.div_le_div_right hle
  rcases Nat.lt_or_eq_of_le (log2_le_log2 hquotient) with hlt | heq
  -- the power of two that the greater quotient begins with lies between the two
  · have hne : n / den ≠ 0 := by
      intro hzero
      rw [hzero, Nat.log2_zero] at hlt
      omega
    have hpow : 2 ^ (n / den).log2 ≤ n / den := Nat.log2_self_le hne
    have hfits : Fits (2 ^ (n / den).log2) := by
      refine ⟨?_, Nat.lt_of_le_of_lt hpow ((Nat.div_lt_iff_lt_mul hden).mpr hn)⟩
      rw [Nat.log2_two_pow]
      exact Nat.pow_dvd_pow 2 (Nat.sub_le _ _)
    have hm : m ≤ 2 ^ (n / den).log2 * den := by
      refine Nat.le_of_lt ((Nat.div_lt_iff_lt_mul hden).mp ?_)
      exact Nat.lt_of_lt_of_le Nat.lt_log2_self (Nat.pow_le_pow_right (by decide) hlt)
    exact Nat.le_trans (roundUnits_le hfits.1 hden hm)
      (le_roundUnits hfits hden ((Nat.le_div_iff_mul_le hden).mp hpow))
  · refine roundUnits_mono_of_spacing_eq hden hle ?_
    rw [spacing, spacing, heq]

/-! ## Doubles -/

theorem units_nearest {num den : Nat} (h : roundUnits num den < limit) (negative : Bool) :
    (nearest negative num den).units =
      if negative then -(roundUnits num den : Int) else roundUnits num den := by
  unfold nearest
  rw [dif_pos h]
  rfl

theorem signed_magnitude (x : Double) :
    (if x.isNegative then -(x.magnitude : Int) else x.magnitude) = x.units := by
  unfold isNegative magnitude
  cases hzero : x.negativeZero with
  | true =>
    have hunits := x.zero hzero
    simp [hunits]
  | false =>
    simp only [Bool.false_or, decide_eq_true_eq]
    split <;> omega

/-- The magnitude of a double that is an integer. -/
theorem magnitude_of_units {x : Double} {k : Int} (hx : x.units = k * unitsPerOne) :
    x.magnitude = k.natAbs * unitsPerOne := by
  rw [magnitude, hx, Int.natAbs_mul, Int.natAbs_natCast]

/-- A double is the one nearest to its own magnitude. -/
theorem nearest_magnitude (x : Double) {den : Nat} (hden : 0 < den) :
    overflows (x.magnitude * den) den = false ∧
      nearest x.isNegative (x.magnitude * den) den = x := by
  have hround : roundUnits (x.magnitude * den) den = x.magnitude := roundUnits_mul x.fits hden
  have hlt : roundUnits (x.magnitude * den) den < limit := by
    rw [hround]
    exact x.fits.2
  have hzero : (x.isNegative && x.magnitude == 0) = x.negativeZero := by
    have hunits := x.zero
    unfold isNegative magnitude
    cases hx : x.negativeZero with
    | true => simp [hunits hx]
    | false =>
      simp only [Bool.false_or, Bool.and_eq_false_iff, decide_eq_false_iff_not, beq_eq_false_iff_ne]
      omega
  refine ⟨decide_eq_false (Nat.not_le.mpr hlt), ?_⟩
  have hunits := signed_magnitude x
  unfold nearest ofMagnitude
  rw [dif_pos hlt]
  simp only [hround, hunits, hzero]

theorem unitExponent_add_lt {s : Nat} (hs : s ≤ 64) : s + unitExponent < topExponent := by
  unfold unitExponent topExponent
  omega

/-- A whole number of at most 64 binary digits is rounded to no more than `2 ^ 64`. -/
theorem roundUnits_natAbs_lt {n : Int} (hn : n.natAbs ≤ 2 ^ (64 : Nat)) :
    roundUnits (n.natAbs * unitsPerOne) 1 < limit := by
  have hfits : Fits (1 * 2 ^ (64 + unitExponent)) :=
    fits_mul_two_pow (by decide) (unitExponent_add_lt (Nat.le_refl _))
  refine Nat.lt_of_le_of_lt (roundUnits_le hfits.1 Nat.one_pos ?_) hfits.2
  rw [Nat.mul_one, Nat.one_mul, Nat.pow_add]
  exact Nat.mul_le_mul_right _ hn

theorem units_ofInt {n : Int} (hn : n.natAbs ≤ 2 ^ (64 : Nat)) :
    (ofInt n).units =
      if n < 0 then -(roundUnits (n.natAbs * unitsPerOne) 1 : Int)
      else roundUnits (n.natAbs * unitsPerOne) 1 := by
  rw [ofInt, units_nearest (roundUnits_natAbs_lt hn)]
  simp only [decide_eq_true_eq]

/-- Of two integers, the greater one has no smaller double. -/
theorem ofInt_mono {a b : Int} (ha : a.natAbs ≤ 2 ^ (64 : Nat)) (hb : b.natAbs ≤ 2 ^ (64 : Nat))
    (hle : a ≤ b) : (ofInt a).units ≤ (ofInt b).units := by
  have mono {m n : Int} (hn : n.natAbs ≤ 2 ^ (64 : Nat)) (hmn : m.natAbs ≤ n.natAbs) :
      roundUnits (m.natAbs * unitsPerOne) 1 ≤ roundUnits (n.natAbs * unitsPerOne) 1 := by
    refine roundUnits_mono Nat.one_pos ?_ (Nat.mul_le_mul_right _ hmn)
    have hfits : Fits (1 * 2 ^ (64 + unitExponent)) :=
      fits_mul_two_pow (by decide) (unitExponent_add_lt (Nat.le_refl _))
    refine Nat.lt_of_le_of_lt ?_ (Nat.lt_of_lt_of_eq hfits.2 (Nat.mul_one _).symm)
    rw [Nat.one_mul, Nat.pow_add]
    exact Nat.mul_le_mul_right _ hn
  rw [units_ofInt ha, units_ofInt hb]
  split
  · split
    · have hmono := mono (m := b) ha (by omega)
      omega
    · omega
  · rw [if_neg (by omega)]
    exact Int.ofNat_le.mpr (mono hb (by omega))

/-- An integer of at most 53 binary digits is a double itself. -/
theorem units_ofInt_of_small {n : Int} (hn : n.natAbs ≤ 2 ^ (53 : Nat)) :
    (ofInt n).units = n * unitsPerOne := by
  have hround : roundUnits (n.natAbs * unitsPerOne) 1 = n.natAbs * unitsPerOne := by
    have hmul := roundUnits_mul (fits_mul_unitsPerOne hn) Nat.one_pos
    rwa [Nat.mul_one] at hmul
  rw [units_ofInt (Nat.le_trans hn (by decide)), hround]
  split
  · next hneg =>
    rw [Int.natCast_mul, ← Int.neg_mul]
    congr 1
    omega
  · next hpos =>
    rw [Int.natCast_mul]
    congr 1
    omega

/-! ## Quotients of doubles -/

variable {x y z : Double}

theorem units_div? (h : x.div? y = some z) :
    0 < y.magnitude ∧ z.units =
      if x.isNegative != y.isNegative then
        -(roundUnits (x.magnitude * unitsPerOne) y.magnitude : Int)
      else roundUnits (x.magnitude * unitsPerOne) y.magnitude := by
  unfold div? quotientUnits at h
  simp only at h
  split at h
  · cases h
  · next hfinite =>
    cases h
    rw [Bool.or_eq_true, not_or, overflows, decide_eq_true_eq, Nat.not_le] at hfinite
    refine ⟨?_, units_nearest hfinite.2 _⟩
    have hzero : y.units ≠ 0 := by simpa [isZero] using hfinite.1
    unfold magnitude
    omega

/-- A quotient that stays within a magnitude of a double is not too great for doubles. -/
theorem exists_div? {k : Nat} (hk : Fits k) (hy : 0 < y.magnitude)
    (hle : x.magnitude * unitsPerOne ≤ k * y.magnitude) : ∃ z, x.div? y = some z := by
  have hlt : roundUnits (x.magnitude * unitsPerOne) y.magnitude < limit :=
    Nat.lt_of_le_of_lt (roundUnits_le hk.1 hy hle) hk.2
  have hzero : y.isZero = false := by
    rw [isZero, beq_eq_false_iff_ne]
    unfold magnitude at hy
    omega
  have hfinite : overflows (x.magnitude * unitsPerOne) y.magnitude = false :=
    decide_eq_false (Nat.not_le.mpr hlt)
  unfold div? quotientUnits
  simp only [hzero, hfinite, Bool.or_self, Bool.false_eq_true, if_false]
  exact ⟨_, rfl⟩

end Telltale.Double
