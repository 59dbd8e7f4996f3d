import Telltale.Proofs.Comparison.Integers
import Telltale.Proofs.Decimal.Shortest
import Telltale.Proofs.Number.FlagWord

/-!
# One number in two kinds

A number may be written as an integer or, if a double is that integer, as the double. The two compare
alike. As keys and as words of flags they are read alike only within bounds.

* `Number.SameNumber` — two numbers are the same, in whatever kinds they are written.
* `Number.SameNumber.units_eq` — their doubles have one value.
* `Number.key_eq_iff` — an integer and its double have one key exactly if the integer is the shortest
  decimal of the double; `Number.isShortest_of_small` finds it so up to 53 binary digits.
* `Number.flagWord?_eq_iff` — they are read as one word of flags exactly if they are not negative.
* `Number.IsRespelling` — a relation says which numbers may be written in another kind, such as those
  that are then read alike in every way (`Number.Interchangeable`).
-/

namespace Telltale

-- the powers of the core library, whatever else is in scope
attribute [local instance (2000)] instPowNat

namespace Number

/-! ## The same number -/

/-- Two numbers are the same: written alike, or both one integer in whatever kinds. -/
def SameNumber (m n : Number) : Prop := m = n ∨ ∃ k, m.Denotes k ∧ n.Denotes k

/-- Whether a number is written as an integer. -/
def isInteger : Number → Bool
  | .integer .. => true
  | .double _ => false

theorem SameNumber.refl (n : Number) : SameNumber n n := .inl rfl

variable {k : Int} {x : Double}

/-- An integer that a double is has that double as its nearest one. -/
theorem units_ofInt_of_units (hk : InRange k) (hx : x.units = k * Double.unitsPerOne) :
    (Double.ofInt k).units = k * Double.unitsPerOne := by
  have hround : Double.roundUnits (k.natAbs * Double.unitsPerOne) 1 =
      k.natAbs * Double.unitsPerOne := by
    have hself := Double.roundUnits_mul x.fits Nat.one_pos
    rwa [Nat.mul_one, ← Double.magnitude, Double.magnitude_of_units hx] at hself
  rw [Double.units_ofInt (natAbs_le_of_inRange hk), hround]
  split
  · next hneg =>
    rw [Int.natCast_mul, ← Int.neg_mul]
    congr 1
    omega
  · next hpos =>
    rw [Int.natCast_mul]
    congr 1
    omega

/-- The doubles of one number have one value. -/
theorem SameNumber.units_eq {m n : Number} (h : SameNumber m n) :
    m.toDouble.units = n.toDouble.units := by
  rcases h with rfl | ⟨k, hm, hn⟩
  · rfl
  · cases m with
    | integer i hi =>
      cases n with
      | integer j hj =>
        cases hm
        cases hn
        rfl
      | double y =>
        cases hm
        exact (units_ofInt_of_units hi hn).trans hn.symm
    | double x =>
      cases n with
      | integer j hj =>
        cases hn
        exact hm.trans (units_ofInt_of_units hj hm).symm
      | double y => exact hm.trans hn.symm

theorem SameNumber.sameValue {m n : Number} (h : SameNumber m n) : m.sameValue n = true :=
  beq_iff_eq.mpr h.units_eq

/-- In one kind, one number is strictly equal to itself. -/
theorem SameNumber.sameKindAndValue_iff {m n : Number} (h : SameNumber m n) :
    m.sameKindAndValue n = true ↔ m.isInteger = n.isInteger := by
  cases m with
  | integer i hi =>
    cases n with
    | integer j hj =>
      refine iff_of_true ?_ rfl
      rcases h with heq | ⟨k, hm, hn⟩
      · cases heq
        exact beq_self_eq_true i
      · exact beq_iff_eq.mpr (hm.trans hn.symm)
    | double y => simp [sameKindAndValue, isInteger]
  | double x =>
    cases n with
    | integer j hj => simp [sameKindAndValue, isInteger]
    | double y => exact iff_of_true h.sameValue rfl

/-! ## Keys -/

/-- An integer is the shortest decimal that reads back as its double. -/
def IsShortest (k : Int) : Prop :=
  k = 0 ∨ Decimal.Exactly (Decimal.shortest (k.natAbs * Double.unitsPerOne)) k.natAbs

/-- An integer of at most 53 binary digits is its own shortest decimal. -/
theorem isShortest_of_small (hk : k.natAbs < 2 ^ (53 : Nat)) : IsShortest k := by
  by_cases hzero : k = 0
  · exact .inl hzero
  · exact .inr (Decimal.shortest_exactly (Int.natAbs_pos.mpr hzero) hk)

/-- The key of a double that is an integer: up to a bound the integer, and else the plain text. -/
theorem key_double (hx : x.units = k * Double.unitsPerOne) :
    (Number.double x).key =
      if k.natAbs < 10 ^ (15 : Nat) then toString k else Layout.plain.write x := by
  have hmagnitude := Double.magnitude_of_units hx
  have hwhole : x.isWhole = true := by
    rw [Double.isWhole, hmagnitude, Nat.mul_mod_left]
    rfl
  have htruncate : x.truncate = k := by
    rw [Double.truncate, hx, Int.mul_tdiv_cancel _ (Int.ne_of_gt units_pos)]
  have hbound : x.magnitude < 10 ^ (15 : Nat) * Double.unitsPerOne ↔
      k.natAbs < 10 ^ (15 : Nat) := by
    rw [hmagnitude]
    exact Nat.mul_lt_mul_right Double.unitsPerOne_pos
  simp only [key, hwhole, htruncate, hbound, Bool.true_and, decide_eq_true_eq]

/-- **An integer and its double have one key exactly if the integer is the shortest decimal of the
double.** -/
theorem key_eq_iff (hk : InRange k) (hx : x.units = k * Double.unitsPerOne) :
    (Number.integer k hk).key = (Number.double x).key ↔ IsShortest k := by
  rw [key_double hx]
  show toString k = _ ↔ _
  split
  · next hsmall =>
    refine iff_of_true rfl (isShortest_of_small (Nat.lt_trans hsmall (by decide)))
  · next hgreat =>
    have hzero : k ≠ 0 := by
      rintro rfl
      exact hgreat (by decide)
    rw [eq_comm, Layout.write_plain_iff hx hzero, Double.magnitude_of_units hx, IsShortest,
      or_iff_right hzero]

/-! ## Words of flags -/

/-- **An integer and its double are read as one word of flags exactly if they are not negative.** -/
theorem flagWord?_eq_iff (hk : InRange k) (hx : x.units = k * Double.unitsPerOne) :
    (Number.integer k hk).flagWord? = (Number.double x).flagWord? ↔ 0 ≤ k := by
  show some (BitVec.ofInt 64 k) = (Json.number (.double x)).flagWord? ↔ 0 ≤ k
  constructor
  · intro h
    obtain ⟨n, hn, hlow, -⟩ := flagWord?_double_eq_some h.symm
    rwa [denotes_unique hx hn]
  · intro hlow
    obtain ⟨n, rfl⟩ := Int.eq_ofNat_of_zero_le hlow
    have hhigh : (n : Int) < 2 ^ (64 : Nat) := hk.2
    have hmin : min ((n : Int).toNat) 18446744073709551615 = n := by omega
    rw [flagWord?_double hx hlow (by omega), hmin]
    rfl

/-! ## Respelling -/

/-- A relation that says which numbers may be written as which others: each as itself, and otherwise
as the same number in the other kind. -/
structure IsRespelling (R : Number → Number → Prop) : Prop where
  refl : ∀ n, R n n
  same : ∀ {m n}, R m n → SameNumber m n

/-- Respelled numbers keep their keys. -/
def KeepsKeys (R : Number → Number → Prop) : Prop := ∀ {m n}, R m n → m.key = n.key

/-- Respelled numbers keep the words of flags that they are read as. -/
def KeepsWords (R : Number → Number → Prop) : Prop := ∀ {m n}, R m n → m.flagWord? = n.flagWord?

/-- Two numbers are the same, and are read alike in every way. -/
structure Interchangeable (m n : Number) : Prop where
  same : SameNumber m n
  key : m.key = n.key
  flagWord : m.flagWord? = n.flagWord?

theorem isRespelling_interchangeable : IsRespelling Interchangeable :=
  ⟨fun n => ⟨.refl n, rfl, rfl⟩, Interchangeable.same⟩

/-- An integer and its double are interchangeable exactly if they are not negative and the integer is
the shortest decimal of the double. -/
theorem interchangeable_iff (hk : InRange k) (hx : x.units = k * Double.unitsPerOne) :
    Interchangeable (.integer k hk) (.double x) ↔ 0 ≤ k ∧ IsShortest k := by
  constructor
  · rintro ⟨-, hkey, hword⟩
    exact ⟨(flagWord?_eq_iff hk hx).mp hword, (key_eq_iff hk hx).mp hkey⟩
  · rintro ⟨hlow, hshortest⟩
    exact ⟨.inr ⟨k, rfl, hx⟩, (key_eq_iff hk hx).mpr hshortest, (flagWord?_eq_iff hk hx).mpr hlow⟩

end Number

end Telltale
