import Mathlib.Data.List.DropRight
import Telltale.Decimal
import Telltale.Proofs.Double.Order

/-!
# The shortest decimal of a whole number

A double is written by the shortest decimal that reads back as it, and for a whole number that may
be another whole number, with zeros in the place of its last digits. Up to 53 binary digits it is
not: no other whole number reads back as the double.

* `Decimal.Exactly` — a decimal, as digits and a power of ten, is a natural number.
* `Decimal.shortest_exactly` — the shortest decimal of a small whole number is that number.
* `Layout.write_plain_iff` — the plain text of a double has the digits of a whole number exactly if
  the shortest decimal is that number.
-/

namespace Telltale

-- the powers of the core library, whatever else is in scope
attribute [local instance (2000)] instPowNat

/-! ## Digits -/

/-- A power of ten puts zeros behind the digits of a number. -/
theorem toDigits_mul_pow {k : Nat} (hk : 0 < k) (n : Nat) :
    Nat.toDigits 10 (k * 10 ^ n) = Nat.toDigits 10 k ++ List.replicate n '0' := by
  induction n with
  | zero => simp
  | succ n ih =>
    have hpos : 0 < k * 10 ^ n := Nat.mul_pos hk (Nat.pow_pos (by decide))
    have hstep := Nat.toDigits_append_toDigits (b := 10) (by decide) hpos (by decide : 0 < 10)
    have hpow : k * 10 ^ (n + 1) = 10 * (k * 10 ^ n) + 0 := by
      rw [Nat.pow_succ, ← Nat.mul_assoc, Nat.mul_comm 10, Nat.add_zero]
    rw [hpow, ← hstep, ih, List.append_assoc, List.replicate_succ']
    rfl

/-- A search along a range stops no later than at the first place that is known to have a result. -/
theorem exists_findSome?_range {f : Nat → Option α} {i n : Nat} (hi : i < n)
    (hf : (f i).isSome = true) :
    ∃ j ≤ i, ∃ a, f j = some a ∧ (List.range n).findSome? f = some a := by
  have hsplit : List.range n = List.range (i + 1) ++ (List.range (n - (i + 1))).map (i + 1 + ·) := by
    rw [← List.range_add]
    congr 1
    omega
  have hfirst : ((List.range (i + 1)).findSome? f).isSome = true := by
    rw [List.findSome?_isSome_iff]
    exact ⟨i, List.mem_range.mpr (Nat.lt_succ_self i), hf⟩
  obtain ⟨a, ha⟩ := Option.isSome_iff_exists.mp hfirst
  obtain ⟨j, hj, hfj⟩ := List.exists_of_findSome?_eq_some ha
  refine ⟨j, Nat.lt_succ_iff.mp (List.mem_range.mp hj), a, hfj, ?_⟩
  rw [hsplit, List.findSome?_append, ha, Option.some_or]

namespace Decimal

/-- The decimal with some digits and a power of ten is a natural number. -/
def Exactly (d : Nat × Int) (k : Nat) : Prop := d.1 * 10 ^ d.2.toNat = k * 10 ^ (-d.2).toNat

theorem digitCount_mul_pow {k : Nat} (hk : 0 < k) (n : Nat) :
    digitCount (k * 10 ^ n) = digitCount k + n := by
  rw [digitCount, toDigits_mul_pow hk, List.length_append, List.length_replicate, digitCount]

/-! ## Reading back -/

/-- What is found on a grid reads back, and has the power of ten of that grid. -/
theorem readsBack_of_onGrid? {units scaled count n c : Nat} {e : Int}
    (h : onGrid? units scaled count n = some (c, e)) :
    e = (count : Int) - n - 340 ∧ readsBack units c e = true := by
  unfold onGrid? at h
  simp only at h
  split at h
  · next hlower =>
    cases h
    rw [Bool.and_eq_true] at hlower
    exact ⟨rfl, hlower.1⟩
  · split at h
    · next hupper =>
      cases h
      exact ⟨rfl, hupper⟩
    · cases h

/-- Only a small whole number itself reads back as its double, among whole numbers. -/
theorem exactly_of_readsBack {k c : Nat} {e : Int} (hk : k < 2 ^ (53 : Nat)) (he : 0 ≤ e)
    (h : readsBack (k * Double.unitsPerOne) c e = true) : Exactly (c, e) k := by
  have hunits := Double.unitsPerOne_pos
  have hround : Double.roundUnits (c * 10 ^ e.toNat * Double.unitsPerOne) 1 =
      k * Double.unitsPerOne := by
    have hquotient : quotient ⟨false, c, e⟩ = (c * 10 ^ e.toNat * Double.unitsPerOne, 1) := if_pos he
    rw [readsBack, hquotient] at h
    exact beq_iff_eq.mp h
  have hexponent : (-e).toNat = 0 := by omega
  show c * 10 ^ e.toNat = k * 10 ^ (-e).toNat
  rw [hexponent, Nat.pow_zero, Nat.mul_one]
  generalize c * 10 ^ e.toNat = m at hround
  rcases Nat.le_total m (2 ^ (53 : Nat)) with hsmall | hgreat
  · have hself := Double.roundUnits_mul (Double.fits_mul_unitsPerOne hsmall) Nat.one_pos
    rw [Nat.mul_one, hround] at hself
    exact Nat.eq_of_mul_eq_mul_right hunits hself.symm
  -- what has more digits does not come down below the first number with 54 of them
  · have hle : 2 ^ (53 : Nat) * Double.unitsPerOne * 1 ≤ m * Double.unitsPerOne := by
      rw [Nat.mul_one]
      exact Nat.mul_le_mul_right _ hgreat
    have hreach := Double.le_roundUnits (Double.fits_mul_unitsPerOne (Nat.le_refl _)) Nat.one_pos hle
    rw [hround] at hreach
    have hbound := Nat.le_of_mul_le_mul_right hreach hunits
    omega

/-- A small whole number is found on the grid of all its digits. -/
theorem onGrid?_digitCount {k : Nat} (hk : k < 2 ^ (53 : Nat)) :
    onGrid? (k * Double.unitsPerOne) (k * 10 ^ (340 : Nat)) (digitCount k + 340) (digitCount k) =
      some (k, 0) := by
  have hpower : digitCount k + 340 - digitCount k = 340 := by omega
  have hexponent : ((digitCount k + 340 : Nat) : Int) - digitCount k - 340 = 0 := by omega
  have hlower : readsBack (k * Double.unitsPerOne) k 0 = true := by
    have hquotient : quotient ⟨false, k, 0⟩ = (k * 1 * Double.unitsPerOne, 1) := rfl
    have hself := Double.roundUnits_mul
      (Double.fits_mul_unitsPerOne (Nat.le_of_lt hk)) Nat.one_pos
    rw [readsBack, hquotient]
    rw [Nat.mul_one] at hself ⊢
    exact beq_iff_eq.mpr hself
  unfold onGrid?
  simp only [hpower, hexponent]
  have hpow (n : Nat) : 0 < 10 ^ n := Nat.pow_pos (by decide)
  have hpos := hpow 340
  generalize 10 ^ (340 : Nat) = power at hpos ⊢
  simp [Nat.mul_div_cancel k hpos, hlower, hpos]

/-- What is found on a grid with a digit in it is not zero. -/
theorem pos_of_onGrid? {units scaled n c : Nat} {e : Int} (hscaled : 0 < scaled)
    (h : onGrid? units scaled (digitCount scaled) (n + 1) = some (c, e)) : 0 < c := by
  have hpower : 10 ^ (digitCount scaled - (n + 1)) ≤ scaled := by
    by_cases hone : digitCount scaled - (n + 1) = 0
    · rw [hone, Nat.pow_zero]
      exact hscaled
    · have hlength := Nat.length_toDigits_le_iff (b := 10) (n := scaled)
        (k := digitCount scaled - (n + 1)) (by decide) (by omega)
      rw [← digitCount] at hlength
      by_contra hlt
      have hle := hlength.mpr (by omega)
      omega
  have hbelow : 0 < scaled / 10 ^ (digitCount scaled - (n + 1)) :=
    Nat.div_pos hpower (Nat.pow_pos (by decide))
  unfold onGrid? at h
  simp only at h
  split at h
  · cases h
    exact hbelow
  · split at h
    · cases h
      exact Nat.succ_pos _
    · cases h

/-- A small whole number has no more digits than a shortest decimal may have. -/
theorem digitCount_le {k : Nat} (hk : k < 2 ^ (53 : Nat)) : digitCount k ≤ 17 :=
  (Nat.length_toDigits_le_iff (by decide) (by decide)).mpr (Nat.lt_trans hk (by decide))

/-- The shortest decimal of a whole number is looked for on grids of its digits and 340 zeros. -/
theorem shortest_mul_unitsPerOne (k : Nat) :
    shortest (k * Double.unitsPerOne) =
      ((List.range 17).findSome? fun n => onGrid? (k * Double.unitsPerOne) (k * 10 ^ (340 : Nat))
        (digitCount (k * 10 ^ (340 : Nat))) (n + 1)).getD (k * 10 ^ (340 : Nat), -340) := by
  have hscaled : k * Double.unitsPerOne * 10 ^ (340 : Nat) / Double.unitsPerOne =
      k * 10 ^ (340 : Nat) := by
    rw [Nat.mul_right_comm, Nat.mul_div_cancel _ Double.unitsPerOne_pos]
  unfold shortest
  rw [hscaled]

/-- The shortest decimal of a whole number that is not zero has a digit. -/
theorem digits_shortest_pos {k : Nat} (hk : 0 < k) :
    0 < (shortest (k * Double.unitsPerOne)).1 := by
  have hpow (n : Nat) : 0 < 10 ^ n := Nat.pow_pos (by decide)
  have hscaled : 0 < k * 10 ^ (340 : Nat) := Nat.mul_pos hk (hpow 340)
  rw [shortest_mul_unitsPerOne]
  generalize k * 10 ^ (340 : Nat) = scaled at hscaled ⊢
  cases hfound : (List.range 17).findSome? fun n =>
      onGrid? (k * Double.unitsPerOne) scaled (digitCount scaled) (n + 1) with
  | none => exact hscaled
  | some d =>
    obtain ⟨n, -, hn⟩ := List.exists_of_findSome?_eq_some hfound
    exact pos_of_onGrid? (e := d.2) hscaled hn

/-- **The shortest decimal of a whole number of at most 53 binary digits is that number.** -/
theorem shortest_exactly {k : Nat} (hpos : 0 < k) (hk : k < 2 ^ (53 : Nat)) :
    Exactly (shortest (k * Double.unitsPerOne)) k := by
  have hcount := digitCount_mul_pow hpos 340
  have hlength : 0 < digitCount k := Nat.length_toDigits_pos
  have hlt : digitCount k - 1 < 17 := by
    have hle := digitCount_le hk
    omega
  have hlast : digitCount k - 1 + 1 = digitCount k := by omega
  -- the grid of all digits is not passed over, so no digit stands behind the point
  obtain ⟨n, hn, ⟨c, e⟩, hgrid, hsearch⟩ := exists_findSome?_range (f := fun n =>
      onGrid? (k * Double.unitsPerOne) (k * 10 ^ (340 : Nat)) (digitCount k + 340) (n + 1)) hlt (by
    rw [hlast, onGrid?_digitCount hk]
    rfl)
  obtain ⟨hexponent, hreads⟩ := readsBack_of_onGrid? hgrid
  rw [shortest_mul_unitsPerOne, hcount, hsearch, Option.getD_some]
  exact exactly_of_readsBack hk (by omega) hreads

end Decimal

/-! ## Plain texts -/

namespace Layout

open Decimal (Exactly)

theorem digitChar_bne_zero : ∀ d < 10, d ≠ 0 → (Nat.digitChar d == '0') = false := by decide

/-- The digits of a number without the zeros at the end are those of a number that ends in another
digit. -/
theorem exists_rdropWhile_toDigits {c : Nat} (hc : 0 < c) :
    ∃ v z : Nat, c = v * 10 ^ z ∧ v % 10 ≠ 0 ∧
      (Nat.toDigits 10 c).rdropWhile (· == '0') = Nat.toDigits 10 v := by
  induction c using Nat.strongRecOn with
  | ind c ih =>
    have hdigits : 0 < c / 10 → Nat.toDigits 10 c =
        Nat.toDigits 10 (c / 10) ++ [Nat.digitChar (c % 10)] := fun hpos => by
      rw [Nat.toDigits_of_base_le (by decide) (by omega)]
    by_cases hlast : c % 10 = 0
    · obtain ⟨v, z, hv, hend, hkept⟩ := ih (c / 10) (by omega) (by omega)
      refine ⟨v, z + 1, ?_, hend, ?_⟩
      · rw [Nat.pow_succ, ← Nat.mul_assoc, ← hv]
        omega
      · rw [hdigits (by omega), hlast, List.rdropWhile_concat_pos _ _ _ rfl, hkept]
    · refine ⟨c, 0, by rw [Nat.pow_zero, Nat.mul_one], hlast, ?_⟩
      have hdigit : (Nat.digitChar (c % 10) == '0') = false :=
        digitChar_bne_zero _ (Nat.mod_lt c (by decide)) hlast
      by_cases hpos : 0 < c / 10
      · rw [hdigits hpos, List.rdropWhile_concat_neg _ _ _ (by rw [hdigit]; decide)]
      · have hmod : c % 10 = c := by omega
        rw [hmod] at hdigit
        have hsingle := List.rdropWhile_concat_neg (· == '0') [] c.digitChar (by rw [hdigit]; decide)
        rw [Nat.toDigits_of_lt_base (by omega)]
        exact hsingle

theorem toString_injective {m n : Nat} (h : toString m = toString n) : m = n := by
  have hdigits := congrArg (fun s : String => Nat.ofDigitChars 10 s.toList 0) h
  simpa [Nat.toString_eq_ofList_toDigits] using hdigits

/-- A text with a point in it is no whole number. -/
theorem ne_toString_of_mem {s : String} {m : Nat} (h : '.' ∈ s.toList) : s ≠ toString m := by
  rintro rfl
  rw [Nat.toString_eq_ofList_toDigits, String.toList_ofList] at h
  have hdigit := Nat.isDigit_of_mem_toDigits (b := 10) (by decide) (by decide) h
  cases hdigit

/-- Digits with the point behind them are those of a whole number. -/
theorem placed_plain_of_le {v : Nat} (hv : 0 < v) (r : Nat) :
    plain.placed (Nat.toDigits 10 v) ((Nat.toDigits 10 v).length + r) = toString (v * 10 ^ r) := by
  have hlength : 0 < (Nat.toDigits 10 v).length := Nat.length_toDigits_pos
  unfold placed
  rw [if_neg (by omega), if_pos (by omega), Nat.toString_eq_ofList_toDigits, toDigits_mul_pow hv]
  have hzeros : ((Nat.toDigits 10 v).length + (r : Int)).toNat - (Nat.toDigits 10 v).length = r := by
    omega
  rw [hzeros]
  exact String.append_empty

/-- Digits with the point in front of them or among them are no whole number. -/
theorem placed_plain_ne {digits : List Char} {point : Int} (h : point < digits.length) (m : Nat) :
    plain.placed digits point ≠ toString m := by
  unfold placed
  split
  · apply ne_toString_of_mem
    simp
  · rw [if_neg (by omega)]
    apply ne_toString_of_mem
    simp

/-- The digits of a decimal are laid out as a whole number exactly if the decimal is that number. -/
theorem placed_plain_iff {c m : Nat} {e : Int} (hc : 0 < c) :
    plain.placed ((Nat.toDigits 10 c).rdropWhile (· == '0')) ((Nat.toDigits 10 c).length + e) =
      toString m ↔ Exactly (c, e) m := by
  obtain ⟨v, z, rfl, hend, hkept⟩ := exists_rdropWhile_toDigits hc
  have hv : 0 < v := by omega
  have hten (n : Nat) : 0 < 10 ^ n := Nat.pow_pos (by decide)
  rw [hkept, toDigits_mul_pow hv, List.length_append, List.length_replicate]
  show _ ↔ v * 10 ^ z * 10 ^ e.toNat = m * 10 ^ (-e).toNat
  rw [Nat.mul_assoc, ← Nat.pow_add]
  by_cases hplaces : 0 ≤ z + e
  · obtain ⟨r, hr⟩ := Int.eq_ofNat_of_zero_le hplaces
    have hpoint : (((Nat.toDigits 10 v).length + z : Nat) : Int) + e =
        (Nat.toDigits 10 v).length + r := by omega
    have hsum : z + e.toNat = r + (-e).toNat := by omega
    rw [hpoint, placed_plain_of_le hv, hsum, Nat.pow_add, ← Nat.mul_assoc,
      Nat.mul_left_inj (Nat.ne_of_gt (hten _))]
    exact ⟨toString_injective, congrArg toString⟩
  · refine iff_of_false (placed_plain_ne (by omega) m) fun heq => hend ?_
    obtain ⟨r, hr⟩ : ∃ r, (-e).toNat = r + 1 + (z + e.toNat) := ⟨(-e).toNat - z - 1, by omega⟩
    rw [hr, Nat.pow_add 10 (r + 1), ← Nat.mul_assoc,
      Nat.mul_left_inj (Nat.ne_of_gt (hten _))] at heq
    rw [heq, Nat.pow_succ, ← Nat.mul_assoc, Nat.mul_mod_left]

/-- The plain text of a double that is not zero: its sign, and its digits laid out. -/
theorem write_plain {x : Double} (hx : x.units ≠ 0) {c : Nat} {e : Int}
    (hshortest : Decimal.shortest x.magnitude = (c, e)) :
    plain.write x = (if x.units < 0 then "-" else "") ++
      plain.placed ((Nat.toDigits 10 c).rdropWhile (· == '0')) ((Nat.toDigits 10 c).length + e) := by
  have hnegativeZero : x.negativeZero = false := by
    cases hzero : x.negativeZero with
    | true => exact absurd (x.zero hzero) hx
    | false => rfl
  have hzero : x.isZero = false := beq_eq_false_iff_ne.mpr hx
  unfold write
  rw [hshortest]
  simp only [hzero, Double.isNegative, hnegativeZero, Bool.false_or, decide_eq_true_eq]
  rfl

/-- **The plain text of a double that is a whole number shows that number exactly if its shortest
decimal is the number.** -/
theorem write_plain_iff {x : Double} {k : Int} (hx : x.units = k * Double.unitsPerOne) (hk : k ≠ 0) :
    plain.write x = toString k ↔ Exactly (Decimal.shortest x.magnitude) k.natAbs := by
  have hunits : (0 : Int) < Double.unitsPerOne := Int.ofNat_lt.mpr Double.unitsPerOne_pos
  have hmagnitude := Double.magnitude_of_units hx
  have hdigits := Decimal.digits_shortest_pos (Int.natAbs_pos.mpr hk)
  rw [← hmagnitude] at hdigits
  have hne : x.units ≠ 0 := by
    rw [hx]
    exact Int.mul_ne_zero hk (Int.ne_of_gt hunits)
  obtain ⟨⟨c, e⟩, hshortest⟩ : ∃ d, Decimal.shortest x.magnitude = d := ⟨_, rfl⟩
  rw [hshortest] at hdigits ⊢
  rw [write_plain hne hshortest]
  cases k with
  | ofNat m =>
    have hsign : ¬ x.units < 0 := by
      rw [hx]
      exact Int.not_lt.mpr (Int.mul_nonneg (Int.natCast_nonneg m) (Int.le_of_lt hunits))
    rw [if_neg hsign, String.empty_append]
    exact placed_plain_iff hdigits
  | negSucc m =>
    have hsign : x.units < 0 := by
      rw [hx]
      exact Int.mul_neg_of_neg_of_pos (Int.negSucc_lt_zero m) hunits
    rw [if_pos hsign]
    show "-" ++ _ = "-" ++ toString (m + 1) ↔ _
    rw [String.append_right_inj]
    exact placed_plain_iff hdigits

end Layout

end Telltale
