import Telltale.Proofs.Double.Order
import Telltale.Proofs.Signal.Conform

/-!
# How integers compare

Numbers are compared by their nearest doubles. An integer keeps its place in the order then, but two
great integers can have one double between them, and those pass for equal.

* `Comparison.apply_numbers` — two numbers compare as the units of their doubles do.
* `Number.ToldApart` — two integers are the same or have different doubles, as they do if one of
  them has at most 53 binary digits (`Number.toldApart_of_small`).
* `Number.looseEq_integer_iff` — what is loosely equal to an integer, among values whose integers
  are told apart from it.
* `Comparison.apply_integers_iff` — every comparison of two integers is exact precisely if they are
  told apart, and so are sets and declared values then. Not all are
  (`Comparison.neighbours_pass_for_equal`).
-/

namespace Telltale

-- the powers of the core library, whatever else is in scope
attribute [local instance (2000)] instPowNat

/-! ## Comparisons of numbers -/

namespace Comparison

/-- What a comparison says of two integers. -/
def ofIntegers (c : Comparison) (a b : Int) : Bool :=
  match c with
  | .eq => a = b
  | .ne => a ≠ b
  | .gt => b < a
  | .gte => b ≤ a
  | .lt => a < b
  | .lte => a ≤ b

/-- Pairs of integers in the same order compare alike. -/
theorem ofIntegers_congr {a b x y : Int} (hlt : x < y ↔ a < b) (heq : x = y ↔ a = b)
    (c : Comparison) : c.ofIntegers x y = c.ofIntegers a b := by
  cases c <;> simp only [ofIntegers, decide_eq_decide] <;> omega

/-- Two numbers compare as the units of their doubles do. -/
theorem apply_numbers (c : Comparison) (m n : Number) :
    c.apply (.number m) (.number n) =
      some (c.ofIntegers m.toDouble.units n.toDouble.units) := by
  have horder : order? (.number m) (.number n) =
      some (compare m.toDouble.units n.toDouble.units) := rfl
  have hloose : (Json.number m).looseEq (.number n) =
      (m.toDouble.units == n.toDouble.units) := rfl
  generalize m.toDouble.units = x at horder hloose
  generalize n.toDouble.units = y at horder hloose
  unfold apply
  rw [horder, hloose]
  rcases Int.lt_trichotomy x y with hlt | rfl | hgt
  · have hcompare : compare x y = .lt := Int.compare_eq_lt.mpr hlt
    have hne : x ≠ y := Int.ne_of_lt hlt
    cases c <;> simp [hcompare, ofIntegers, hlt, hne, Int.le_of_lt hlt]
  · cases c <;> simp [ofIntegers]
  · have hcompare : compare x y = .gt := Int.compare_eq_gt.mpr hgt
    have hne : x ≠ y := Int.ne_of_gt hgt
    cases c <;> simp [hcompare, ofIntegers, hgt, hne, Int.le_of_lt hgt]

end Comparison

/-! ## Integers that are told apart -/

namespace Number

/-- Two integers are the same or have different nearest doubles. -/
def ToldApart (a b : Int) : Prop := (Double.ofInt a).units = (Double.ofInt b).units → a = b

/-- A number stands for an integer among doubles: it is the integer, or its nearest double. -/
def IsDoubleOf (a : Int) (v : Json) : Prop :=
  ∃ x, v = .number (.double x) ∧ x.units = (Double.ofInt a).units

variable {a b : Int}

theorem natAbs_le_of_inRange (h : InRange a) : a.natAbs ≤ 2 ^ (64 : Nat) := by
  obtain ⟨hlow, hhigh⟩ := h
  omega

/-- Integers that are told apart keep their order as doubles. -/
theorem ToldApart.lt_iff (h : ToldApart a b) (ha : InRange a) (hb : InRange b) :
    (Double.ofInt a).units < (Double.ofInt b).units ↔ a < b := by
  have ha := natAbs_le_of_inRange ha
  have hb := natAbs_le_of_inRange hb
  constructor
  · intro hlt
    refine Int.not_le.mp fun hle => ?_
    have hmono := Double.ofInt_mono hb ha hle
    omega
  · intro hlt
    have hmono := Double.ofInt_mono ha hb (Int.le_of_lt hlt)
    exact Int.lt_iff_le_and_ne.mpr ⟨hmono, fun heq => Int.ne_of_lt hlt (h heq)⟩

theorem ToldApart.eq_iff (h : ToldApart a b) :
    (Double.ofInt a).units = (Double.ofInt b).units ↔ a = b :=
  ⟨h, fun heq => by rw [heq]⟩

theorem ToldApart.symm (h : ToldApart a b) : ToldApart b a := fun heq => (h heq.symm).symm

/-- A small integer is its own double, and no other integer comes down to it. -/
theorem toldApart_of_natAbs_lt (ha : a.natAbs < 2 ^ (53 : Nat)) (hb : InRange b) :
    ToldApart a b := by
  intro heq
  rw [Double.units_ofInt_of_small (Nat.le_of_lt ha)] at heq
  have hunits : (0 : Int) < Double.unitsPerOne := Int.ofNat_lt.mpr Double.unitsPerOne_pos
  have hb := natAbs_le_of_inRange hb
  -- beyond 53 digits the doubles stay beyond those of 53 digits
  rcases Nat.le_total b.natAbs (2 ^ (53 : Nat)) with hsmall | hgreat
  · rw [Double.units_ofInt_of_small hsmall] at heq
    exact Int.eq_of_mul_eq_mul_right (Int.ne_of_gt hunits) heq
  · rcases Int.lt_or_le b 0 with hneg | hpos
    · have hmono := Double.ofInt_mono (b := -(2 ^ (53 : Nat))) hb (by decide) (by omega)
      rw [Double.units_ofInt_of_small (n := -(2 ^ (53 : Nat))) (by decide), ← heq] at hmono
      have hle := Int.le_of_mul_le_mul_right hmono hunits
      omega
    · have hmono := Double.ofInt_mono (a := 2 ^ (53 : Nat)) (by decide) hb (by omega)
      rw [Double.units_ofInt_of_small (n := 2 ^ (53 : Nat)) (by decide), ← heq] at hmono
      have hle := Int.le_of_mul_le_mul_right hmono hunits
      omega

/-- Two integers are told apart if one of them has at most 53 binary digits. -/
theorem toldApart_of_small (ha : InRange a) (hb : InRange b)
    (hsmall : a.natAbs < 2 ^ (53 : Nat) ∨ b.natAbs < 2 ^ (53 : Nat)) : ToldApart a b := by
  rcases hsmall with hsmall | hsmall
  · exact toldApart_of_natAbs_lt hsmall hb
  · exact (toldApart_of_natAbs_lt hsmall ha).symm

/-- What is loosely equal to an integer: the integer itself and its doubles. -/
theorem looseEq_integer_iff (ha : InRange a) {v : Json}
    (h : ∀ b hb, v = .number (.integer b hb) → ToldApart a b) :
    v.looseEq (.number (.integer a ha)) = true ↔
      v = .number (.integer a ha) ∨ IsDoubleOf a v := by
  cases v with
  | number n =>
    cases n with
    | integer b hb =>
      have happly : (Json.number (.integer b hb)).looseEq (.number (.integer a ha)) = true ↔
          (Double.ofInt b).units = (Double.ofInt a).units := beq_iff_eq
      rw [happly, (h b hb rfl).symm.eq_iff]
      simp [IsDoubleOf]
    | double x =>
      have happly : (Json.number (.double x)).looseEq (.number (.integer a ha)) = true ↔
          x.units = (Double.ofInt a).units := beq_iff_eq
      rw [happly]
      simp [IsDoubleOf]
  | _ => simp [Json.looseEq, Json.strictEq, IsDoubleOf]

end Number

/-! ## Comparisons of integers -/

namespace Comparison

open Number (InRange ToldApart IsDoubleOf)

/-- **Every comparison of two integers is exact precisely if they are told apart**, as they are if
one of them has at most 53 binary digits; otherwise they pass for equal. An integer is found in a
set, or among the declared values of a signal, if it or its double is there, unless an integer there
is not told apart from it. -/
theorem apply_integers_iff {a : Int} (ha : InRange a) :
    (∀ b (hb : InRange b),
      ((∀ c : Comparison, c.apply (.number (.integer a ha)) (.number (.integer b hb)) =
          some (c.ofIntegers a b)) ↔ ToldApart a b) ∧
      (¬ ToldApart a b → ∀ c : Comparison,
        c.apply (.number (.integer a ha)) (.number (.integer b hb)) = some (c.ofIntegers a a)) ∧
      (a.natAbs < 2 ^ (53 : Nat) ∨ b.natAbs < 2 ^ (53 : Nat) → ToldApart a b)) ∧
    (∀ set : List Json, (∀ b hb, .number (.integer b hb) ∈ set → ToldApart a b) →
      ((Json.number (.integer a ha)).memberOf set = true ↔
        .number (.integer a ha) ∈ set ∨ ∃ v ∈ set, IsDoubleOf a v)) ∧
    ∀ s : Signal, s.type = .enum →
      (∀ b hb, .number (.integer b hb) ∈ s.values.map (·.value) → ToldApart a b) →
      ∀ w, s.conform (.number (.integer a ha)) = .accepted w →
        w = .number (.integer a ha) ∨ IsDoubleOf a w := by
  refine ⟨fun b hb => ⟨⟨fun hexact heq => ?_, fun h c => ?_⟩, fun h c => ?_,
    Number.toldApart_of_small ha hb⟩, fun set hset => ?_, fun s hs hvalues w hw => ?_⟩
  · have hsame := hexact .eq
    rw [apply_numbers] at hsame
    simpa [ofIntegers, Number.toDouble, heq] using hsame
  · rw [apply_numbers]
    exact congrArg some (ofIntegers_congr (h.lt_iff ha hb) h.eq_iff c)
  · rw [apply_numbers]
    have hunits : (Double.ofInt a).units = (Double.ofInt b).units := (Classical.not_imp.mp h).1
    refine congrArg some (ofIntegers_congr ?_ ?_ c)
    · simp [Number.toDouble, hunits]
    · simp [Number.toDouble, hunits]
  · have hiff (v : Json) (hv : v ∈ set) := Number.looseEq_integer_iff ha (v := v)
      fun b hb heq => hset b hb (by rwa [← heq])
    rw [Json.memberOf, List.any_eq_true]
    constructor
    · rintro ⟨v, hv, hloose⟩
      exact ((hiff v hv).mp hloose).imp (fun heq => by rwa [← heq]) fun hdouble => ⟨v, hv, hdouble⟩
    · rintro (hmem | ⟨v, hv, hdouble⟩)
      · exact ⟨_, hmem, Json.looseEq_refl _⟩
      · exact ⟨v, hv, (hiff v hv).mpr (.inr hdouble)⟩
  · obtain ⟨d, hd, hloose, rfl⟩ := Signal.conform_enum hs hw
    refine (Number.looseEq_integer_iff ha fun b hb heq => hvalues b hb ?_).mp hloose
    exact heq ▸ List.mem_map_of_mem hd

theorem apply_integers_iff_market :
    ∃ (ha : InRange 128666762) (hb : InRange 18446744073709551615), ∀ c : Comparison,
      c.apply (.number (.integer 128666762 ha)) (.number (.integer 18446744073709551615 hb)) =
        some (c.ofIntegers 128666762 18446744073709551615) := by
  have ha : InRange 128666762 := by decide
  have hb : InRange 18446744073709551615 := by decide
  obtain ⟨hexact, -, hsmall⟩ := (apply_integers_iff ha).1 _ hb
  exact ⟨ha, hb, hexact.mpr (hsmall (.inl (by decide)))⟩

/-- The first two integers that are not told apart. -/
theorem neighbours_pass_for_equal :
    ∃ (ha : InRange 9007199254740992) (hb : InRange 9007199254740993),
      eq.apply (.number (.integer 9007199254740992 ha)) (.number (.integer 9007199254740993 hb)) =
        some true ∧
      lt.apply (.number (.integer 9007199254740992 ha)) (.number (.integer 9007199254740993 hb)) =
        some false ∧
      (Json.number (.integer 9007199254740993 hb)).memberOf
        [.number (.integer 9007199254740992 ha)] = true := by
  decide +kernel

end Comparison

end Telltale
