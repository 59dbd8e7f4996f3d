import Telltale.Json
import Telltale.Proofs.Double.Order

/-!
# Numbers as words of flags

A word of flags holds an integer in two's complement. A number that is an integer from 0 up to
`2 ^ 64`, in either kind, is read as the word that holds it, and so is a negative integer that is
not a double. The end of that range is a double itself, though, and it is read as a word as well.

* `Holds` — a word is an integer modulo `2 ^ 64`, and its bits are those of the integer;
  `holds_ofInt` has the word of each integer.
* `Number.flagWord?_double`, `Number.flagWord?_double_eq_some` — which doubles are read as words,
  and as which.
* `Number.flagWord?_exact_iff` — the reading is exact for every number but the double at the end of
  the range.
-/

namespace Telltale

-- the powers of the core library, whatever else is in scope
attribute [local instance (2000)] instPowNat

/-! ## Words -/

/-- A word holds an integer in two's complement. -/
structure Holds (word : BitVec 64) (n : Int) : Prop where
  toNat_eq : (word.toNat : Int) = n % 18446744073709551616
  bit_eq : ∀ i ≤ 63, (bit word i : Int) = n / 2 ^ i % 2

theorem bit_eq_div_mod (word : BitVec 64) (i : Nat) :
    (bit word i : Int) = (word.toNat : Int) / 2 ^ i % 2 := by
  have hbit : bit word i = word.toNat / 2 ^ i % 2 := by
    rw [bit, BitVec.getLsbD, Nat.testBit_eq_decide_div_mod_eq]
    rcases Nat.mod_two_eq_zero_or_one (word.toNat / 2 ^ i) with h | h <;> simp [h]
  rw [hbit]
  push_cast
  rfl

/-- The digits of an integer up to the 63rd are those of its rest modulo `2 ^ 64`. -/
theorem emod_div_two_pow_emod_two (n : Int) {i : Nat} (hi : i ≤ 63) :
    n % 18446744073709551616 / 2 ^ i % 2 = n / 2 ^ i % 2 := by
  have hpow : (18446744073709551616 : Int) = 2 ^ i * (2 * 2 ^ (63 - i)) := by
    have hsplit : i + (1 + (63 - i)) = 64 := by omega
    rw [← Int.pow_succ', ← Int.pow_add, Nat.add_comm _ 1, hsplit]
    decide
  have hstep : (0 : Int) < 2 ^ i := Int.pow_pos (by decide)
  have hdiv := Int.mul_ediv_add_emod n 18446744073709551616
  generalize n % 18446744073709551616 = rest at hdiv ⊢
  generalize n / 18446744073709551616 = quotient at hdiv
  have hn : n = rest + 2 ^ i * (2 * (2 ^ (63 - i) * quotient)) := by
    rw [← hdiv, hpow]
    ac_rfl
  rw [hn, Int.add_mul_ediv_left _ _ (Int.ne_of_gt hstep), Int.add_mul_emod_self_left]

theorem Holds.of_toNat_eq {word : BitVec 64} {n : Int}
    (h : (word.toNat : Int) = n % 18446744073709551616) : Holds word n := by
  refine ⟨h, fun i hi => ?_⟩
  rw [bit_eq_div_mod, h, emod_div_two_pow_emod_two n hi]

theorem holds_ofInt (n : Int) : Holds (BitVec.ofInt 64 n) n := by
  refine .of_toNat_eq ?_
  rw [BitVec.toNat_ofInt]
  omega

/-! ## Readings -/

namespace Number

/-- The integer that a number is, if it is one. -/
def Denotes : Number → Int → Prop
  | .integer m _, n => m = n
  | .double x, n => x.units = n * Double.unitsPerOne

/-- A number that stands for a word of flags: an integer of either sign, or a double that is a whole
number from zero up to, not including, `2 ^ 64`. -/
def IsWord : Number → Prop
  | .integer .. => True
  | .double x => ∃ n : Int, x.units = n * Double.unitsPerOne ∧ 0 ≤ n ∧ n < 18446744073709551616

/-- A number is read as a word if it stands for one, and as the word that holds it. -/
structure ReadsExactly (v : Number) : Prop where
  isSome_iff : (Json.number v).flagWord?.isSome = true ↔ v.IsWord
  holds : ∀ word, (Json.number v).flagWord? = some word → ∃ n, v.Denotes n ∧ Holds word n

/-- The double at the end of the range of words, where the next digit would begin. -/
def IsWordLimit (v : Number) : Prop :=
  ∃ x, v = .double x ∧ x.units = 18446744073709551616 * Double.unitsPerOne

theorem units_pos : (0 : Int) < Double.unitsPerOne := Int.ofNat_lt.mpr Double.unitsPerOne_pos

/-- A double for a whole number within the limit, which counts, is read as a word. -/
theorem flagWord?_double {x : Double} {n : Int} (hx : x.units = n * Double.unitsPerOne)
    (hlow : 0 ≤ n) (hhigh : n ≤ 18446744073709551616) :
    (Json.number (.double x)).flagWord? =
      some (BitVec.ofNat 64 (min n.toNat 18446744073709551615)) := by
  have hunits : 0 ≤ x.units := hx ▸ Int.mul_nonneg hlow (Int.le_of_lt units_pos)
  have hmagnitude : x.magnitude = n.toNat * Double.unitsPerOne := by
    rw [Double.magnitude, hx, Int.natAbs_mul, Int.natAbs_natCast]
    congr 1
    omega
  have hwhole : x.isWhole = true := by
    rw [Double.isWhole, hmagnitude, Nat.mul_mod_left]
    rfl
  have hle : x.magnitude ≤ 2 ^ (64 : Nat) * Double.unitsPerOne := by
    rw [hmagnitude]
    exact Nat.mul_le_mul_right _ (by omega)
  have htruncate : x.truncate = n := by
    rw [Double.truncate, hx, Int.mul_tdiv_cancel _ (Int.ne_of_gt units_pos)]
  simp [Json.flagWord?, flagWord?, hunits, hwhole, hle, htruncate]

/-- No other double is. -/
theorem flagWord?_double_eq_some {x : Double} {word : BitVec 64}
    (h : (Json.number (.double x)).flagWord? = some word) :
    ∃ n : Int, x.units = n * Double.unitsPerOne ∧ 0 ≤ n ∧ n ≤ 18446744073709551616 := by
  simp only [Json.flagWord?, flagWord?] at h
  split at h
  · next hword =>
    rw [Bool.and_eq_true, Bool.and_eq_true, decide_eq_true_eq, decide_eq_true_eq, Double.isWhole,
      beq_iff_eq] at hword
    obtain ⟨⟨hunits, hwhole⟩, hle⟩ := hword
    obtain ⟨n, hn⟩ := Nat.dvd_of_mod_eq_zero hwhole
    rw [hn, Nat.mul_comm] at hle
    have hbound := Nat.le_of_mul_le_mul_right hle Double.unitsPerOne_pos
    refine ⟨n, ?_, Int.natCast_nonneg n, by omega⟩
    rw [← Int.natCast_mul, Nat.mul_comm, ← hn, Double.magnitude]
    omega
  · cases h

theorem denotes_unique {x : Double} {m n : Int} (hm : x.units = m * Double.unitsPerOne)
    (hn : x.units = n * Double.unitsPerOne) : m = n :=
  Int.eq_of_mul_eq_mul_right (Int.ne_of_gt units_pos) (hm.symm.trans hn)

/-- **Every number is read exactly as a word of flags, but for one**: of the doubles, those that are
whole numbers from zero up to `2 ^ 64` are read as words, and `2 ^ 64` itself, which no word holds,
is read as a word with all bits set. -/
theorem flagWord?_exact_iff (v : Number) :
    (v.ReadsExactly ↔ ¬ v.IsWordLimit) ∧
      (v.IsWordLimit → (Json.number v).flagWord? = some (BitVec.allOnes 64)) := by
  have hlimit : v.IsWordLimit → (Json.number v).flagWord? = some (BitVec.allOnes 64) := by
    rintro ⟨x, rfl, hx⟩
    exact flagWord?_double hx (by decide) (by decide)
  refine ⟨⟨fun hexact hbeyond => ?_, fun hwithin => ?_⟩, hlimit⟩
  -- the limit is read, and yet does not stand for a word
  · obtain ⟨x, rfl, hx⟩ := hbeyond
    obtain ⟨n, hn, -, hlt⟩ := hexact.isSome_iff.mp (by rw [hlimit ⟨x, rfl, hx⟩]; rfl)
    have heq := denotes_unique hx hn
    omega
  · cases v with
    | integer m hm =>
      refine ⟨iff_of_true rfl trivial, fun word hword => ⟨m, rfl, ?_⟩⟩
      cases hword
      exact holds_ofInt m
    | double x =>
      have hread {word : BitVec 64} (h : (Json.number (.double x)).flagWord? = some word) :
          ∃ n : Int, x.units = n * Double.unitsPerOne ∧ 0 ≤ n ∧ n < 18446744073709551616 := by
        obtain ⟨n, hn, hlow, hhigh⟩ := flagWord?_double_eq_some h
        have hne : n ≠ 18446744073709551616 := fun heq => hwithin ⟨x, rfl, heq ▸ hn⟩
        exact ⟨n, hn, hlow, by omega⟩
      refine ⟨⟨fun h => ?_, fun ⟨n, hn, hlow, hhigh⟩ => ?_⟩, fun word hword => ?_⟩
      · obtain ⟨word, hword⟩ := Option.isSome_iff_exists.mp h
        exact hread hword
      · rw [flagWord?_double hn hlow (Int.le_of_lt hhigh)]
        rfl
      · obtain ⟨n, hn, hlow, hhigh⟩ := hread hword
        refine ⟨n, hn, .of_toNat_eq ?_⟩
        rw [flagWord?_double hn hlow (Int.le_of_lt hhigh)] at hword
        cases hword
        rw [BitVec.toNat_ofNat]
        omega

theorem flagWord?_exact_iff_edges :
    ∃ hlow, ReadsExactly (.integer (-9223372036854775808) hlow) ∧
      ReadsExactly (.double (Double.ofInt 18446744073709549568)) := by
  have hbelow : (Double.ofInt 18446744073709549568).units ≠
      18446744073709551616 * Double.unitsPerOne := by decide +kernel
  refine ⟨by decide, (flagWord?_exact_iff _).1.mpr ?_, (flagWord?_exact_iff _).1.mpr ?_⟩
  · rintro ⟨x, heq, -⟩
    cases heq
  · rintro ⟨x, heq, hx⟩
    cases heq
    exact hbelow hx

theorem units_wordLimit : (Double.ofInt 18446744073709551616).units =
    18446744073709551616 * Double.unitsPerOne := by decide +kernel

/-- The first whole number beyond all words, as a double. -/
theorem word_limit_read :
    ¬ IsWord (.double (Double.ofInt 18446744073709551616)) ∧
      (Json.number (.double (Double.ofInt 18446744073709551616))).flagWord? =
        some (BitVec.allOnes 64) := by
  refine ⟨?_, flagWord?_double units_wordLimit (by decide) (by decide)⟩
  rintro ⟨n, hn, -, hlt⟩
  have heq := denotes_unique units_wordLimit hn
  omega

end Number

end Telltale
