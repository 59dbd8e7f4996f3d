import Telltale.Proofs.Double.Order
import Telltale.Proofs.Recency.Sight

/-!
# How exact the check for a recent event is

The check compares doubles that come of whole microseconds. Neither rounding is noticed: up to a
billion seconds the doubles compare as the microseconds do. But the microseconds are cut off toward
zero, so the interval of the check reaches by less than a microsecond beyond both of its ends.

* `Recency.isWithin_iff_micros` — doubles and roundings aside: what is compared are microseconds.
* `Recency.within_exact_iff` — the check is exact unless the age lies just outside.
  `Recency.just_outside_passes` has such ages.
-/

namespace Telltale

-- the powers of the core library, whatever else is in scope
attribute [local instance (2000)] instPowNat

namespace Recency

/-! ## Microseconds as doubles -/

section Seconds

variable {W : Nat} {us : Int} {s : Double}

/-- Microseconds that are no more than a number of seconds are so as a double. -/
theorem exists_seconds (hW : W ≤ 1000000000) (hlow : 0 ≤ us) (hhigh : us ≤ W * 1000000) :
    ∃ s, (Double.ofInt us).div? million = some s ∧ 0 ≤ s.units ∧
      s.units ≤ W * Double.unitsPerOne := by
  obtain ⟨hsign, hmillion⟩ := million_eq
  have hunits : (Double.ofInt us).units = us * Double.unitsPerOne :=
    Double.units_ofInt_of_small (by omega)
  have hnegative : (Double.ofInt us).isNegative = false :=
    (Double.le_units_ofInt (n := 0) (by decide) hlow).2
  have hfits : Double.Fits (W * Double.unitsPerOne) := Double.fits_mul_unitsPerOne (by omega)
  have hpos : 0 < million.magnitude := by
    rw [hmillion]
    exact Nat.mul_pos (by decide) Double.unitsPerOne_pos
  have hle : (Double.ofInt us).magnitude * Double.unitsPerOne ≤
      W * Double.unitsPerOne * million.magnitude := by
    calc (Double.ofInt us).magnitude * Double.unitsPerOne
        = us.natAbs * (Double.unitsPerOne * Double.unitsPerOne) := by
          rw [Double.magnitude_of_units hunits, Nat.mul_assoc]
      _ ≤ W * 1000000 * (Double.unitsPerOne * Double.unitsPerOne) :=
          Nat.mul_le_mul_right _ (by omega)
      _ = W * Double.unitsPerOne * million.magnitude := by
          rw [hmillion]
          ac_rfl
  obtain ⟨s, hs⟩ := Double.exists_div? hfits hpos hle
  have hround := (Double.units_div? hs).2
  rw [hnegative, hsign] at hround
  have hbound := Double.roundUnits_le hfits.1 hpos hle
  refine ⟨s, hs, ?_, ?_⟩
  · rw [hround]
    exact Int.natCast_nonneg _
  · rw [hround, ← Int.natCast_mul]
    exact Int.ofNat_le.mpr hbound

/-- Microseconds before now are so as a double. -/
theorem seconds_neg (hneg : us < 0) (hus : us.natAbs ≤ 2 ^ (63 : Nat))
    (hs : (Double.ofInt us).div? million = some s) : s.units < 0 := by
  obtain ⟨hsign, hmillion⟩ := million_eq
  have hunits : (Double.ofInt us).units ≤ -1 * Double.unitsPerOne := by
    have hmono := Double.ofInt_mono (b := -1) (Nat.le_trans hus (by decide)) (by decide) (by omega)
    rwa [Double.units_ofInt_of_small (n := -1) (by decide)] at hmono
  have hone : 1000000 ≤ Double.unitsPerOne := by decide +kernel
  have hnegative : (Double.ofInt us).isNegative = true := by
    rw [Double.isNegative, Bool.or_eq_true, decide_eq_true_eq]
    omega
  have hmagnitude : 1000000 ≤ (Double.ofInt us).magnitude := by
    unfold Double.magnitude
    omega
  obtain ⟨hden, hround⟩ := Double.units_div? hs
  -- a millionth is far above the least double
  have hreach : 1 * million.magnitude ≤ (Double.ofInt us).magnitude * Double.unitsPerOne := by
    rw [Nat.one_mul, hmillion]
    exact Nat.mul_le_mul_right _ hmagnitude
  have hle := Double.le_roundUnits (by decide +kernel) hden hreach
  rw [hround, hnegative, hsign, if_pos (by decide)]
  omega

/-- Microseconds beyond a number of seconds are so as a double. -/
theorem seconds_beyond (hW : W ≤ 1000000000) (hus : W * 1000000 < us)
    (hs : (Double.ofInt us).div? million = some s) : W * Double.unitsPerOne < s.units := by
  obtain ⟨hsign, hmillion⟩ := million_eq
  obtain ⟨hunits, hnegative⟩ := Double.le_units_ofInt (n := W * 1000000 + 1) (by omega) hus
  have hmillionth : (W * 1048576 + 1) * 1000000 ≤ (W * 1000000 + 1) * 1048576 := by omega
  have hdigits : W * 1048576 + 1 < 2 ^ (53 : Nat) := by omega
  have hexponent : Double.unitExponent - 20 < Double.topExponent := by
    have hlt := Double.unitExponent_add_lt (s := 0) (by decide)
    omega
  have hmagnitude : (W * 1000000 + 1) * Double.unitsPerOne ≤ (Double.ofInt us).magnitude :=
    Int.ofNat_le.mp (Int.le_trans hunits Int.le_natAbs)
  -- a double that is above the bound, but by less than a millionth
  have hstep : Double.unitsPerOne = 1048576 * 2 ^ (Double.unitExponent - 20) := by decide +kernel
  have hfits : Double.Fits ((W * 1048576 + 1) * 2 ^ (Double.unitExponent - 20)) :=
    Double.fits_mul_two_pow (Nat.le_of_lt hdigits) hexponent
  have hlargest : (W * 1048576 + 1) * 2 ^ (Double.unitExponent - 20) ≤ Double.largestUnits :=
    Nat.mul_le_mul (Nat.le_sub_one_of_lt hdigits)
      (Nat.pow_le_pow_right (by decide) (Nat.le_of_lt hexponent))
  have hpos : 0 < 2 ^ (Double.unitExponent - 20) := Nat.two_pow_pos _
  generalize 2 ^ (Double.unitExponent - 20) = step at hstep hfits hlargest hpos
  have hle : (W * 1048576 + 1) * step * million.magnitude ≤
      (Double.ofInt us).magnitude * Double.unitsPerOne :=
    calc (W * 1048576 + 1) * step * million.magnitude
        = (W * 1048576 + 1) * 1000000 * step * Double.unitsPerOne := by
          rw [hmillion, ← Nat.mul_assoc, Nat.mul_right_comm _ step]
      _ ≤ (W * 1000000 + 1) * 1048576 * step * Double.unitsPerOne :=
          Nat.mul_le_mul_right _ (Nat.mul_le_mul_right _ hmillionth)
      _ = (W * 1000000 + 1) * Double.unitsPerOne * Double.unitsPerOne := by
          rw [Nat.mul_assoc (W * 1000000 + 1), ← hstep]
      _ ≤ (Double.ofInt us).magnitude * Double.unitsPerOne := Nat.mul_le_mul_right _ hmagnitude
  have hbeyond := Double.le_units_div? hnegative hsign hs hfits hlargest hle
  have hbound : W * Double.unitsPerOne < (W * 1048576 + 1) * step := by
    rw [hstep, ← Nat.mul_assoc]
    exact Nat.mul_lt_mul_of_pos_right (Nat.lt_succ_self _) hpos
  rw [← Int.natCast_mul]
  exact Int.lt_of_lt_of_le (Int.ofNat_lt.mpr hbound) hbeyond

end Seconds

/-! ## The check -/

theorem isWithin_iff {age : Int} {bound : Extended} :
    isWithin age bound = true ↔
      ∃ s, secondsOf? age = some s ∧ 0 ≤ s.units ∧ (Extended.finite s).atMost bound = true := by
  unfold isWithin
  cases secondsOf? age with
  | none => simp
  | some s => simp

theorem secondsOf?_eq_some {age : Int} {s : Double} :
    secondsOf? age = some s ↔
      (age.tdiv 1000).natAbs ≤ 2 ^ (63 : Nat) ∧ age.tdiv 1000 ≠ 2 ^ (63 : Nat) ∧
        (Double.ofInt (age.tdiv 1000)).div? million = some s := by
  unfold secondsOf? micros? narrow?
  generalize age.tdiv 1000 = us
  split
  · next hnarrow =>
    rw [Option.bind_some, and_iff_right (by omega), and_iff_right (by omega)]
  · next hwide =>
    refine iff_of_false nofun fun ⟨hus, hne, _⟩ => hwide ?_
    omega

/-- Doubles and roundings aside, whole microseconds are compared. -/
theorem isWithin_iff_micros {W : Nat} (hW : W ≤ 1000000000) (age : Int) :
    isWithin age (.finite (.ofInt W)) = true ↔
      0 ≤ age.tdiv 1000 ∧ age.tdiv 1000 ≤ W * 1000000 := by
  have hbound : (Double.ofInt W).units = W * Double.unitsPerOne :=
    Double.units_ofInt_of_small (by omega)
  simp only [isWithin_iff, secondsOf?_eq_some, Extended.atMost, Double.atMost, hbound,
    decide_eq_true_eq]
  generalize age.tdiv 1000 = us
  constructor
  · rintro ⟨s, ⟨hus, -, hs⟩, hpos, hle⟩
    refine ⟨Int.not_lt.mp fun hneg => ?_, Int.not_lt.mp fun hover => ?_⟩
    · exact Int.not_lt.mpr hpos (seconds_neg hneg hus hs)
    · exact Int.not_lt.mpr hle (seconds_beyond hW hover hs)
  · rintro ⟨hlow, hhigh⟩
    obtain ⟨s, hs, hpos, hle⟩ := exists_seconds hW hlow hhigh
    exact ⟨s, ⟨by omega, by omega, hs⟩, hpos, hle⟩

theorem isWithin_iff_nanos {W : Nat} (hW : W ≤ 1000000000) (age : Int) :
    isWithin age (.finite (.ofInt W)) = true ↔
      -1000 < age ∧ age < W * Timestamp.nanosPerSecond + 1000 := by
  rw [isWithin_iff_micros hW, Timestamp.nanosPerSecond]
  rcases Int.le_total 0 age with hpos | hneg
  · rw [Int.tdiv_eq_ediv_of_nonneg hpos]
    omega
  -- toward zero, and so up
  · obtain ⟨past, rfl⟩ : ∃ past, age = -past := ⟨-age, by omega⟩
    rw [Int.neg_tdiv, Int.tdiv_eq_ediv_of_nonneg (by omega)]
    omega

/-- An event was last seen no more than a number of seconds before now, to the nanosecond. -/
def IsRecent (r : Recency) (event : String) (W : Nat) (now : Timestamp) : Prop :=
  ∃ t, r.lastSeen? event = some t ∧ 0 ≤ now.since t ∧ now.since t ≤ W * Timestamp.nanosPerSecond

/-- An event was last seen longer ago than a number of seconds or after now, but by less than a
microsecond. -/
def IsJustOutside (r : Recency) (event : String) (W : Nat) (now : Timestamp) : Prop :=
  ∃ t, r.lastSeen? event = some t ∧
    (-1000 < now.since t ∧ now.since t < 0 ∨
      W * Timestamp.nanosPerSecond < now.since t ∧
        now.since t < W * Timestamp.nanosPerSecond + 1000)

variable {W : Nat}

theorem IsJustOutside.not_isRecent {r : Recency} {event : String} {now : Timestamp}
    (h : r.IsJustOutside event W now) : ¬ r.IsRecent event W now := by
  obtain ⟨t, ht, hage⟩ := h
  rintro ⟨t', ht', hlow, hhigh⟩
  cases ht.symm.trans ht'
  omega

/-- **The check for a recent event is exact unless its age lies just outside**, and then it is
passed all the same. -/
theorem within_exact_iff (hW : W ≤ 1000000000) (r : Recency) (event : String) (now : Timestamp) :
    ((r.within event (.finite (.ofInt W)) now = true ↔ r.IsRecent event W now) ↔
        ¬ r.IsJustOutside event W now) ∧
      (r.within event (.finite (.ofInt W)) now = true ↔
        r.IsRecent event W now ∨ r.IsJustOutside event W now) := by
  have hwithin : r.within event (.finite (.ofInt W)) now = true ↔
      r.IsRecent event W now ∨ r.IsJustOutside event W now := by
    have hbound : (0 : Int) ≤ W * Timestamp.nanosPerSecond := by
      unfold Timestamp.nanosPerSecond
      omega
    unfold within age? IsRecent IsJustOutside
    cases r.lastSeen? event with
    | none => simp
    | some t =>
      rw [Option.map_some, Option.any_some, isWithin_iff_nanos hW]
      simp only [Option.some.injEq, exists_eq_left']
      omega
  refine ⟨?_, hwithin⟩
  rw [hwithin]
  constructor
  · exact fun hexact houtside => houtside.not_isRecent (hexact.mp (.inr houtside))
  · exact fun hinside => or_iff_left hinside

theorem within_exact_iff_docked :
    let r := empty.record "Docked" ⟨100, 0⟩
    r.within "Docked" (.finite (.ofInt 3)) ⟨103, 0⟩ = true ∧
      r.within "Docked" (.finite (.ofInt 3)) ⟨103, 1000⟩ = false := by
  intro r
  have hat (now : Timestamp) := within_exact_iff (W := 3) (by decide) r "Docked" now
  have hseen : r.lastSeen? "Docked" = some ⟨100, 0⟩ := rfl
  refine ⟨(hat _).2.mpr (.inl ⟨_, hseen, by decide, by decide⟩),
    Bool.eq_false_iff.mpr fun h => ?_⟩
  rcases (hat _).2.mp h with ⟨t, ht, hage⟩ | ⟨t, ht, hage⟩
  · cases hseen.symm.trans ht
    exact absurd hage (by decide)
  · cases hseen.symm.trans ht
    exact absurd hage (by decide)

/-- An event of three seconds and a nanosecond ago, and one that is a nanosecond ahead. -/
theorem just_outside_passes :
    let r := empty.record "Docked" ⟨100, 0⟩
    (r.within "Docked" (.finite (.ofInt 3)) ⟨103, 1⟩ = true ∧ ¬ r.IsRecent "Docked" 3 ⟨103, 1⟩) ∧
      r.within "Docked" (.finite (.ofInt 3)) ⟨99, 999999999⟩ = true ∧
        ¬ r.IsRecent "Docked" 3 ⟨99, 999999999⟩ := by
  intro r
  have hseen : r.lastSeen? "Docked" = some ⟨100, 0⟩ := rfl
  refine ⟨⟨by decide +kernel, ?_⟩, by decide +kernel, ?_⟩
  · exact IsJustOutside.not_isRecent ⟨_, hseen, by decide⟩
  · exact IsJustOutside.not_isRecent ⟨_, hseen, by decide⟩

end Recency

end Telltale
