import Telltale.Comparison
import Telltale.Proofs.Json.Equality
import Telltale.Proofs.Number.Kinds

/-!
# Values that differ in the kinds of numbers

Two values of one shape may differ in how the numbers inside them are written. Comparisons do not see
the difference as long as it is in a number by itself; inside arrays and objects equality is strict,
and there they do.

* `Json.Alike` — two values have one shape, and numbers at corresponding places are related.
* `Json.Alike.truthy_eq`, `Json.Alike.key?_eq`, `Json.Alike.flagWord?_eq` — what is read alike.
* `Json.looseEq_iff_of_alike` — values that differ in kinds alone are loosely equal exactly if they
  are numbers or do not differ.
* `Comparison.apply_congr_iff` — exactly then every comparison takes them alike.
* `Comparison.apply_left`, `Comparison.apply_right` — whatever the two are, a comparison with a number
  or with a value that holds no number takes them alike.
-/

namespace Telltale

namespace Json

/-! ## Values of one shape -/

mutual

/-- Two values have one shape, and a relation holds between numbers at corresponding places. -/
inductive Alike (R : Number → Number → Prop) : Json → Json → Prop where
  | null : Alike R .null .null
  | bool (b : Bool) : Alike R (.bool b) (.bool b)
  | number {m n : Number} (h : R m n) : Alike R (.number m) (.number n)
  | string (s : String) : Alike R (.string s) (.string s)
  | array {as bs : List Json} (h : AlikeItems R as bs) : Alike R (.array as) (.array bs)
  | object {as bs : List (String × Json)} (h : AlikeFields R as bs) :
    Alike R (.object as) (.object bs)

/-- Items are alike one by one. -/
inductive AlikeItems (R : Number → Number → Prop) : List Json → List Json → Prop where
  | nil : AlikeItems R [] []
  | cons {a b : Json} {as bs : List Json} (h : Alike R a b) (hrest : AlikeItems R as bs) :
    AlikeItems R (a :: as) (b :: bs)

/-- Fields have the same names and are alike one by one. -/
inductive AlikeFields (R : Number → Number → Prop) :
    List (String × Json) → List (String × Json) → Prop where
  | nil : AlikeFields R [] []
  | cons (name : String) {a b : Json} {as bs : List (String × Json)} (h : Alike R a b)
    (hrest : AlikeFields R as bs) : AlikeFields R ((name, a) :: as) ((name, b) :: bs)

end

section Alike

variable {R S : Number → Number → Prop}

mutual

theorem Alike.refl (hR : ∀ n, R n n) : ∀ a, Alike R a a
  | .null => .null
  | .bool b => .bool b
  | .number n => .number (hR n)
  | .string s => .string s
  | .array items => .array (AlikeItems.refl hR items)
  | .object fields => .object (AlikeFields.refl hR fields)

theorem AlikeItems.refl (hR : ∀ n, R n n) : ∀ items, AlikeItems R items items
  | [] => .nil
  | a :: rest => .cons (Alike.refl hR a) (AlikeItems.refl hR rest)

theorem AlikeFields.refl (hR : ∀ n, R n n) : ∀ fields, AlikeFields R fields fields
  | [] => .nil
  | (name, a) :: rest => .cons name (Alike.refl hR a) (AlikeFields.refl hR rest)

end

mutual

theorem Alike.mono (hRS : ∀ {m n}, R m n → S m n) {a b : Json} : Alike R a b → Alike S a b
  | .null => .null
  | .bool b => .bool b
  | .number h => .number (hRS h)
  | .string s => .string s
  | .array h => .array (h.mono hRS)
  | .object h => .object (h.mono hRS)

theorem AlikeItems.mono (hRS : ∀ {m n}, R m n → S m n) {as bs : List Json} :
    AlikeItems R as bs → AlikeItems S as bs
  | .nil => .nil
  | .cons h hrest => .cons (h.mono hRS) (hrest.mono hRS)

theorem AlikeFields.mono (hRS : ∀ {m n}, R m n → S m n) {as bs : List (String × Json)} :
    AlikeFields R as bs → AlikeFields S as bs
  | .nil => .nil
  | .cons name h hrest => .cons name (h.mono hRS) (hrest.mono hRS)

end

theorem AlikeItems.getElem? {as bs : List Json} (h : AlikeItems R as bs) (i : Nat) :
    Option.Rel (Alike R) as[i]? bs[i]? := by
  induction as generalizing bs i with
  | nil =>
    cases h
    exact .none
  | cons a as ih =>
    cases h with
    | cons h hrest =>
      cases i with
      | zero => exact .some h
      | succ i => exact ih hrest i

theorem AlikeFields.get? {as bs : List (String × Json)} (h : AlikeFields R as bs) (name : String) :
    Option.Rel (Alike R) (Table.get? as name) (Table.get? bs name) := by
  induction as generalizing bs with
  | nil =>
    cases h
    exact .none
  | cons p as ih =>
    cases h with
    | cons n h hrest =>
      rw [Table.get?_cons, Table.get?_cons]
      split
      · exact .some h
      · exact ih hrest

/-! ## Readings -/

variable {a b : Json}

theorem Alike.isNumber_eq (h : Alike R a b) : a.isNumber = b.isNumber := by
  cases h <;> rfl

theorem Alike.truthy_eq (hR : ∀ {m n}, R m n → m.toDouble.units = n.toDouble.units)
    (h : Alike R a b) : truthy (some a) = truthy (some b) := by
  cases h with
  | null | bool | string => rfl
  | number h => simp only [truthy, Double.isZero, hR h]
  | array h => cases h <;> rfl
  | object h => cases h <;> rfl

theorem Alike.key?_eq (hR : ∀ {m n}, R m n → m.key = n.key) (h : Alike R a b) :
    a.key? = b.key? := by
  cases h with
  | number h => exact congrArg some (hR h)
  | null | bool | string | array | object => rfl

theorem Alike.flagWord?_eq (hR : ∀ {m n}, R m n → m.flagWord? = n.flagWord?) (h : Alike R a b) :
    a.flagWord? = b.flagWord? := by
  cases h with
  | number h => exact hR h
  | null | bool | string | array | object => rfl

end Alike

/-! ## Strict equality -/

/-- Two numbers are the same and written in one kind. -/
def SameKind (m n : Number) : Prop := m.SameNumber n ∧ m.isInteger = n.isInteger

mutual

/-- Values that differ in kinds alone are strictly equal exactly if they do not differ. -/
theorem Alike.strictEq_iff {a b : Json} :
    Alike Number.SameNumber a b → (strictEq a b = true ↔ Alike SameKind a b)
  | .null => iff_of_true rfl .null
  | .bool b => iff_of_true (beq_self_eq_true b) (.bool b)
  | .string s => iff_of_true (beq_self_eq_true s) (.string s)
  | .number h => by
    rw [strictEq, h.sameKindAndValue_iff]
    constructor
    · exact fun hkind => .number ⟨h, hkind⟩
    · rintro ⟨⟩
      next hkind => exact hkind.2
  | .array h => by
    rw [strictEq, h.strictEqItems_iff]
    constructor
    · exact .array
    · rintro ⟨⟩
      assumption
  | .object h => by
    rw [strictEq, h.strictEqFields_iff]
    constructor
    · exact .object
    · rintro ⟨⟩
      assumption

theorem AlikeItems.strictEqItems_iff {as bs : List Json} :
    AlikeItems Number.SameNumber as bs → (strictEqItems as bs = true ↔ AlikeItems SameKind as bs)
  | .nil => iff_of_true rfl .nil
  | .cons h hrest => by
    rw [strictEqItems, Bool.and_eq_true, h.strictEq_iff, hrest.strictEqItems_iff]
    constructor
    · exact fun ⟨hfirst, hothers⟩ => .cons hfirst hothers
    · rintro ⟨⟩
      next hfirst hothers => exact ⟨hfirst, hothers⟩

theorem AlikeFields.strictEqFields_iff {as bs : List (String × Json)} :
    AlikeFields Number.SameNumber as bs →
      (strictEqFields as bs = true ↔ AlikeFields SameKind as bs)
  | .nil => iff_of_true rfl .nil
  | .cons name h hrest => by
    rw [strictEqFields, Bool.and_eq_true, Bool.and_eq_true, h.strictEq_iff,
      hrest.strictEqFields_iff]
    constructor
    · exact fun ⟨⟨_, hfirst⟩, hothers⟩ => .cons name hfirst hothers
    · rintro ⟨⟩
      next hfirst hothers => exact ⟨⟨beq_self_eq_true name, hfirst⟩, hothers⟩

end

/-- Values that differ in kinds alone are loosely equal exactly if they are numbers or do not
differ. -/
theorem looseEq_iff_of_alike {a b : Json} (h : Alike Number.SameNumber a b) :
    looseEq a b = true ↔ a.isNumber = true ∨ Alike SameKind a b := by
  have hstrict := h.strictEq_iff
  cases h with
  | number h => exact iff_of_true h.sameValue (.inl rfl)
  | null | bool | string | array | object =>
    show strictEq _ _ = true ↔ _
    rw [hstrict, or_iff_right]
    exact Bool.false_ne_true

/-! ## Values without numbers inside -/

mutual

/-- Whether a number stands in a value, at whatever depth. -/
def holdsNumber : Json → Bool
  | .number _ => true
  | .array items => itemsHoldNumber items
  | .object fields => fieldsHoldNumber fields
  | _ => false

/-- Whether a number stands in some item. -/
def itemsHoldNumber : List Json → Bool
  | [] => false
  | v :: rest => holdsNumber v || itemsHoldNumber rest

/-- Whether a number stands in some field. -/
def fieldsHoldNumber : List (String × Json) → Bool
  | [] => false
  | (_, v) :: rest => holdsNumber v || fieldsHoldNumber rest

end

/-- A value is a number, or holds none. -/
def Shallow (v : Json) : Prop := v.isNumber = true ∨ v.holdsNumber = false

instance (v : Json) : Decidable v.Shallow := inferInstanceAs (Decidable (_ ∨ _))

section Strict

variable {R : Number → Number → Prop}

mutual

/-- Values of one shape are strictly equal to the same values among those without numbers. -/
theorem Alike.strictEq_left {a b : Json} :
    Alike R a b → ∀ {c : Json}, c.holdsNumber = false → strictEq a c = strictEq b c
  | .null, _, _ | .bool _, _, _ | .string _, _, _ => rfl
  | .number _, c, hc => by
    cases c with
    | number n => cases hc
    | null | bool | string | array | object => rfl
  | .array h, c, hc => by
    cases c with
    | array cs =>
      rw [holdsNumber] at hc
      rw [strictEq, strictEq, h.strictEqItems_left hc]
    | null | bool | number | string | object => rfl
  | .object h, c, hc => by
    cases c with
    | object cs =>
      rw [holdsNumber] at hc
      rw [strictEq, strictEq, h.strictEqFields_left hc]
    | null | bool | number | string | array => rfl

theorem AlikeItems.strictEqItems_left {as bs : List Json} :
    AlikeItems R as bs → ∀ {cs : List Json}, itemsHoldNumber cs = false →
      strictEqItems as cs = strictEqItems bs cs
  | .nil, _, _ => rfl
  | .cons h hrest, cs, hcs => by
    cases cs with
    | nil => rfl
    | cons c cs =>
      rw [itemsHoldNumber, Bool.or_eq_false_iff] at hcs
      rw [strictEqItems, strictEqItems, h.strictEq_left hcs.1, hrest.strictEqItems_left hcs.2]

theorem AlikeFields.strictEqFields_left {as bs : List (String × Json)} :
    AlikeFields R as bs → ∀ {cs : List (String × Json)}, fieldsHoldNumber cs = false →
      strictEqFields as cs = strictEqFields bs cs
  | .nil, _, _ => rfl
  | .cons _ h hrest, cs, hcs => by
    cases cs with
    | nil => rfl
    | cons p cs =>
      rw [fieldsHoldNumber, Bool.or_eq_false_iff] at hcs
      rw [strictEqFields, strictEqFields, h.strictEq_left hcs.1, hrest.strictEqFields_left hcs.2]

end

end Strict

/-- With a number, or a value that holds none, values that differ in kinds alone compare alike. -/
theorem Alike.looseEq_left {a b c : Json} (h : Alike Number.SameNumber a b) (hc : c.Shallow) :
    looseEq a c = looseEq b c := by
  cases c with
  | number n =>
    cases h with
    | number h => simp only [looseEq, Number.sameValue, Double.sameValue, h.units_eq]
    | null | bool | string | array | object => rfl
  | null | bool | string | array | object =>
    have hfree := hc.resolve_left Bool.false_ne_true
    have hstrict := h.strictEq_left hfree
    cases h <;> exact hstrict

/-- Among numbers and values that hold none, values that differ in kinds alone are found alike. -/
theorem Alike.memberOf_eq {a b : Json} (h : Alike Number.SameNumber a b) {set : List Json}
    (hset : ∀ v ∈ set, v.Shallow) : a.memberOf set = b.memberOf set := by
  induction set with
  | nil => rfl
  | cons v rest ih =>
    obtain ⟨hv, hrest⟩ := List.forall_mem_cons.mp hset
    have hmember (c : Json) : c.memberOf (v :: rest) = (looseEq v c || c.memberOf rest) := rfl
    rw [hmember, hmember, looseEq_comm v a, looseEq_comm v b, h.looseEq_left hv, ih hrest]

/-- Loosely equal values are loosely equal to the same values. -/
theorem looseEq_congr {a b : Json} (h : looseEq a b = true) (c : Json) :
    looseEq a c = looseEq b c :=
  Bool.eq_iff_iff.mpr ⟨looseEq_trans (looseEq_symm h), looseEq_trans h⟩

end Json

/-! ## Comparisons -/

namespace Comparison

open Json (Alike)

theorem order?_left (hab : Alike Number.SameNumber a b) (c : Json) : order? a c = order? b c := by
  cases hab with
  | number h =>
    cases c with
    | number n => simp only [order?, Number.compareTo, Double.compareTo, h.units_eq]
    | null | bool | string | array | object => rfl
  | null | bool | string | array | object => rfl

theorem order?_right (hab : Alike Number.SameNumber a b) (c : Json) : order? c a = order? c b := by
  cases hab with
  | number h =>
    cases c with
    | number n => simp only [order?, Number.compareTo, Double.compareTo, h.units_eq]
    | null | bool | string | array | object => rfl
  | null | bool | string | array | object => cases c <;> rfl

variable {a b c : Json}

/-- A comparison looks at nothing but order or nothing but equality. -/
theorem apply_eq {a' b' : Json} (op : Comparison)
    (hloose : op.isOrdering = false → a.looseEq b = a'.looseEq b')
    (horder : order? a b = order? a' b') : op.apply a b = op.apply a' b' := by
  cases op with
  | eq | ne => simp only [apply, hloose rfl]
  | gt | gte | lt | lte => simp only [apply, horder]

/-- With a number, or a value that holds none, every comparison takes values alike that differ in
kinds alone; an ordering does so with every value. -/
theorem apply_left (hab : Alike Number.SameNumber a b) (op : Comparison)
    (hc : op.isOrdering = false → c.Shallow) : op.apply a c = op.apply b c := by
  apply op.apply_eq _ (order?_left hab c)
  intro hequality
  exact hab.looseEq_left (hc hequality)

theorem apply_right (hab : Alike Number.SameNumber a b) (op : Comparison)
    (hc : op.isOrdering = false → c.Shallow) : op.apply c a = op.apply c b := by
  apply op.apply_eq _ (order?_right hab c)
  intro hequality
  rw [Json.looseEq_comm c a, Json.looseEq_comm c b, hab.looseEq_left (hc hequality)]

/-- **Every comparison takes values alike that differ in kinds alone exactly if they are loosely
equal.** -/
theorem apply_congr_iff (hab : Alike Number.SameNumber a b) :
    (∀ (op : Comparison) c, op.apply a c = op.apply b c ∧ op.apply c a = op.apply c b) ↔
      a.looseEq b = true := by
  constructor
  · intro h
    have hself : some (a.looseEq b) = some (b.looseEq b) := (h .eq b).1
    rw [Option.some.inj hself, Json.looseEq_refl]
  · intro h op c
    have hloose := Json.looseEq_congr h c
    constructor
    · exact op.apply_eq (fun _ => hloose) (order?_left hab c)
    · apply op.apply_eq _ (order?_right hab c)
      intro _
      rw [Json.looseEq_comm c a, Json.looseEq_comm c b, hloose]

end Comparison

end Telltale
