import Telltale.Json

/-!
# The two equalities of values

`Json.strictEq` keeps the kinds of numbers apart, `Json.looseEq` compares two numbers by value. Both
are equivalence relations:

* `strictEq_refl`, `strictEq_comm`, `strictEq_trans` — by recursion on the first value, along with
  the rows of items and of fields inside it.
* `looseEq_refl`, `looseEq_comm`, `looseEq_trans` — from `looseEq_iff`, which says that two loosely
  equal values are either numbers of one value or no numbers and strictly equal.
-/

namespace Telltale

/-! ## Numbers -/

namespace Number

@[simp] theorem sameValue_refl (a : Number) : a.sameValue a = true := by
  simp [sameValue, Double.sameValue]

theorem sameValue_comm (a b : Number) : a.sameValue b = b.sameValue a := by
  simp only [sameValue, Double.sameValue]
  exact Bool.beq_comm

theorem sameValue_trans {a b c : Number} (hab : a.sameValue b = true) (hbc : b.sameValue c = true) :
    a.sameValue c = true := by
  simp only [sameValue, Double.sameValue, beq_iff_eq] at hab hbc ⊢
  exact hab.trans hbc

@[simp] theorem sameKindAndValue_refl (a : Number) : a.sameKindAndValue a = true := by
  cases a <;> simp [sameKindAndValue, Double.sameValue]

theorem sameKindAndValue_comm (a b : Number) : a.sameKindAndValue b = b.sameKindAndValue a := by
  cases a <;> cases b <;> first | rfl | exact Bool.beq_comm

theorem sameKindAndValue_trans {a b c : Number} (hab : a.sameKindAndValue b = true)
    (hbc : b.sameKindAndValue c = true) : a.sameKindAndValue c = true := by
  cases a <;> cases b <;> first | cases hab | skip
  all_goals cases c <;> first | cases hbc | skip
  all_goals
    simp only [sameKindAndValue, Double.sameValue, beq_iff_eq] at hab hbc ⊢
    exact hab.trans hbc

end Number

namespace Json

/-! ## Strict equality -/

mutual

@[simp] theorem strictEq_refl : ∀ v : Json, strictEq v v = true
  | .null => rfl
  | .bool b => by simp [strictEq]
  | .number n => by simp [strictEq]
  | .string s => by simp [strictEq]
  | .array items => by simpa [strictEq] using strictEqItems_refl items
  | .object fields => by simpa [strictEq] using strictEqFields_refl fields

theorem strictEqItems_refl : ∀ items : List Json, strictEqItems items items = true
  | [] => rfl
  | v :: rest => by simp [strictEqItems, strictEq_refl v, strictEqItems_refl rest]

theorem strictEqFields_refl : ∀ fields : List (String × Json), strictEqFields fields fields = true
  | [] => rfl
  | (name, v) :: rest => by simp [strictEqFields, strictEq_refl v, strictEqFields_refl rest]

end

mutual

theorem strictEq_comm : ∀ a b : Json, strictEq a b = strictEq b a
  | .null, b => by cases b <;> rfl
  | .bool _, b => by cases b <;> first | rfl | exact Bool.beq_comm
  | .number m, b => by
    cases b with
    | number n => exact m.sameKindAndValue_comm n
    | _ => rfl
  | .string _, b => by cases b <;> first | rfl | exact Bool.beq_comm
  | .array as, b => by
    cases b with
    | array bs => exact strictEqItems_comm as bs
    | _ => rfl
  | .object as, b => by
    cases b with
    | object bs => exact strictEqFields_comm as bs
    | _ => rfl

theorem strictEqItems_comm : ∀ as bs : List Json, strictEqItems as bs = strictEqItems bs as
  | [], [] => rfl
  | [], _ :: _ => rfl
  | _ :: _, [] => rfl
  | a :: as, b :: bs => by
    simp only [strictEqItems]
    rw [strictEq_comm a b, strictEqItems_comm as bs]

theorem strictEqFields_comm :
    ∀ as bs : List (String × Json), strictEqFields as bs = strictEqFields bs as
  | [], [] => rfl
  | [], _ :: _ => rfl
  | _ :: _, [] => rfl
  | (m, a) :: as, (n, b) :: bs => by
    simp only [strictEqFields]
    rw [strictEq_comm a b, strictEqFields_comm as bs, Bool.beq_comm (a := m)]

end

mutual

theorem strictEq_trans :
    ∀ a b c : Json, strictEq a b = true → strictEq b c = true → strictEq a c = true
  | .null, b, c, hab, hbc => by cases b <;> first | exact hbc | cases hab
  | .bool x, b, c, hab, hbc => by
    cases b with
    | bool y => rwa [show x = y by simpa [strictEq] using hab]
    | _ => cases hab
  | .number l, b, c, hab, hbc => by
    cases b with
    | number m =>
      cases c with
      | number n => exact Number.sameKindAndValue_trans hab hbc
      | _ => cases hbc
    | _ => cases hab
  | .string s, b, c, hab, hbc => by
    cases b with
    | string t => rwa [show s = t by simpa [strictEq] using hab]
    | _ => cases hab
  | .array as, b, c, hab, hbc => by
    cases b with
    | array bs =>
      cases c with
      | array cs => exact strictEqItems_trans as bs cs hab hbc
      | _ => cases hbc
    | _ => cases hab
  | .object as, b, c, hab, hbc => by
    cases b with
    | object bs =>
      cases c with
      | object cs => exact strictEqFields_trans as bs cs hab hbc
      | _ => cases hbc
    | _ => cases hab

theorem strictEqItems_trans :
    ∀ as bs cs : List Json, strictEqItems as bs = true → strictEqItems bs cs = true →
      strictEqItems as cs = true
  | [], [], _, _, hbc => hbc
  | [], _ :: _, _, hab, _ => by cases hab
  | _ :: _, [], _, hab, _ => by cases hab
  | _ :: _, _ :: _, [], _, hbc => by cases hbc
  | a :: as, b :: bs, c :: cs, hab, hbc => by
    simp only [strictEqItems, Bool.and_eq_true] at hab hbc ⊢
    exact ⟨strictEq_trans a b c hab.1 hbc.1, strictEqItems_trans as bs cs hab.2 hbc.2⟩

theorem strictEqFields_trans :
    ∀ as bs cs : List (String × Json), strictEqFields as bs = true → strictEqFields bs cs = true →
      strictEqFields as cs = true
  | [], [], _, _, hbc => hbc
  | [], _ :: _, _, hab, _ => by cases hab
  | _ :: _, [], _, hab, _ => by cases hab
  | _ :: _, _ :: _, [], _, hbc => by cases hbc
  | (l, a) :: as, (m, b) :: bs, (n, c) :: cs, hab, hbc => by
    simp only [strictEqFields, Bool.and_eq_true, beq_iff_eq] at hab hbc ⊢
    exact ⟨⟨hab.1.1.trans hbc.1.1, strictEq_trans a b c hab.1.2 hbc.1.2⟩,
      strictEqFields_trans as bs cs hab.2 hbc.2⟩

end

/-! ## Loose equality -/

/-- Two values are loosely equal if they are numbers of one value, or no numbers and strictly
equal. -/
theorem looseEq_iff {a b : Json} :
    looseEq a b = true ↔
      (∃ m n, a = .number m ∧ b = .number n ∧ m.sameValue n = true) ∨
      (a.isNumber = false ∧ b.isNumber = false ∧ strictEq a b = true) := by
  cases a <;> cases b <;> simp [looseEq, strictEq, isNumber, number?]

@[simp] theorem looseEq_refl (v : Json) : looseEq v v = true := by
  cases v <;> simp [looseEq]

theorem looseEq_symm {a b : Json} (h : looseEq a b = true) : looseEq b a = true := by
  rcases looseEq_iff.mp h with ⟨m, n, rfl, rfl, hmn⟩ | ⟨ha, hb, hab⟩
  · exact (Number.sameValue_comm n m).trans hmn
  · exact looseEq_iff.mpr (.inr ⟨hb, ha, (strictEq_comm b a).trans hab⟩)

theorem looseEq_comm (a b : Json) : looseEq a b = looseEq b a :=
  Bool.eq_iff_iff.mpr ⟨looseEq_symm, looseEq_symm⟩

theorem looseEq_trans {a b c : Json} (hab : looseEq a b = true) (hbc : looseEq b c = true) :
    looseEq a c = true := by
  rcases looseEq_iff.mp hab with ⟨l, m, rfl, rfl, hlm⟩ | ⟨ha, hb, hab⟩
  · rcases looseEq_iff.mp hbc with ⟨m', n, hm, rfl, hmn⟩ | ⟨hm, -, -⟩
    · cases hm
      exact Number.sameValue_trans hlm hmn
    · cases hm
  · rcases looseEq_iff.mp hbc with ⟨m, n, rfl, -, -⟩ | ⟨-, hc, hbc⟩
    · cases hb
    · exact looseEq_iff.mpr (.inr ⟨ha, hc, strictEq_trans a b c hab hbc⟩)

end Json

end Telltale
