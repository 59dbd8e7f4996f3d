import Telltale.Proofs.Catalog.Accepted

/-!
# Values that conform to a signal

`Signal.conform` accepts values and may replace them. What it hands back is a value that the signal
takes (`Signal.Takes`): a declared value as it is written, or a value of the signal's type.

* `Signal.takes_of_conform`, `Signal.conform_eq_self_iff` — the values that a well-formed signal
  takes are those that conforming hands back, and those that it leaves as they are.
* `Signal.filter_declared` — at most one declared value is loosely equal to a given value.
* `Signal.not_takes_iff` — the accepted values that a signal does not take: numbers for truth
  values, and values that are only loosely equal to a declared one.
* `Signal.conform_defaultValue`, `Signal.takes_defaultValue` — the value of a signal that cannot be
  computed always conforms, but the signal takes it only if it takes its declared default.
-/

namespace Telltale.Signal

/-- The values that a signal takes: the declared ones, or those of its type. -/
def Takes (s : Signal) (v : Json) : Prop :=
  match s.type with
  | .enum => ∃ d ∈ s.values, d.value = v
  | .bool => ∃ b, v = .bool b
  | .number => ∃ n, v = .number n
  | .string => ∃ t, v = .string t
  | .array => ∃ items, v = .array items

variable {s : Signal} {v w : Json}

/-! ## Declared values -/

/-- If a declared value is loosely equal to a value, no other one is. -/
theorem filter_declared (hs : s.WellFormed) {d : EnumValue} (hd : d ∈ s.values)
    (hv : d.value.looseEq v = true) : s.values.filter (·.value.looseEq v) = [d] := by
  refine filter_eq_singleton (hs.distinct.imp ?_) hd hv
  rintro x y hxy ⟨hx, hy⟩
  rw [Json.looseEq_trans hx (Json.looseEq_symm hy)] at hxy
  cases hxy

theorem declared?_eq_some (hs : s.WellFormed) {d : EnumValue} (hd : d ∈ s.values)
    (hv : d.value.looseEq v = true) : s.declared? v = some d := by
  unfold declared?
  rw [← List.head?_filter, filter_declared hs hd hv, List.head?_cons]

/-! ## Conforming -/

theorem of_declared? {d : EnumValue} (h : s.declared? v = some d) :
    d ∈ s.values ∧ d.value.looseEq v = true := by
  have hloose := List.find?_some h
  exact ⟨List.mem_of_find?_eq_some h, hloose⟩

theorem conform_enum (ht : s.type = .enum) (h : s.conform v = .accepted w) :
    ∃ d ∈ s.values, d.value.looseEq v = true ∧ w = d.value := by
  simp only [conform, ht] at h
  split at h
  · next d hd =>
    cases h
    obtain ⟨hmem, hloose⟩ := of_declared? hd
    exact ⟨d, hmem, hloose, rfl⟩
  · cases h

theorem conformBool_cases (v : Json) :
    (∃ w, conformBool v = .accepted w) ∨ conformBool v = .wrongType v := by
  cases v with
  | bool b => exact .inl ⟨.bool b, rfl⟩
  | number n =>
    simp only [conformBool]
    split
    · exact .inl ⟨_, rfl⟩
    · split
      · exact .inl ⟨_, rfl⟩
      · exact .inr rfl
  | _ => exact .inr rfl

theorem conformBool_eq_accepted (h : conformBool v = .accepted w) :
    (∃ b, w = .bool b) ∧ ((∃ b, v = .bool b) ∨ v.isNumber = true) := by
  cases v with
  | bool b => cases h; exact ⟨⟨b, rfl⟩, .inl ⟨b, rfl⟩⟩
  | number n =>
    refine ⟨?_, .inr rfl⟩
    simp only [conformBool] at h
    split at h
    · cases h; exact ⟨false, rfl⟩
    · split at h
      · cases h; exact ⟨true, rfl⟩
      · cases h
  | _ => cases h

/-- A value is accepted, or it is the one that is refused. -/
theorem conform_cases (s : Signal) (v : Json) :
    (∃ w, s.conform v = .accepted w) ∨ s.conform v = .undeclared v ∨
      s.conform v = .wrongType v := by
  have hite (b : Bool) : (∃ w, (if b then .accepted v else .wrongType v) = Conformance.accepted w) ∨
      (if b then .accepted v else .wrongType v) = Conformance.wrongType v := by
    cases b with
    | true => exact .inl ⟨v, rfl⟩
    | false => exact .inr rfl
  unfold conform
  cases s.type with
  | enum =>
    cases s.declared? v with
    | some d => exact .inl ⟨d.value, rfl⟩
    | none => exact .inr (.inl rfl)
  | bool => exact (conformBool_cases v).imp_right .inr
  | number => exact (hite v.isNumber).imp_right .inr
  | string => exact (hite v.string?.isSome).imp_right .inr
  | array => exact (hite v.array?.isSome).imp_right .inr

/-- Values of the other types are accepted as they are or not at all. -/
theorem eq_of_ite_accepted {b : Bool}
    (h : (if b then Conformance.accepted v else .wrongType v) = .accepted w) :
    b = true ∧ w = v := by
  cases b with
  | false => cases h
  | true => cases h; exact ⟨rfl, rfl⟩

theorem exists_number (h : v.isNumber = true) : ∃ n, v = .number n := by
  cases v with
  | number n => exact ⟨n, rfl⟩
  | _ => cases h

theorem exists_string (h : v.string?.isSome = true) : ∃ t, v = .string t := by
  cases v with
  | string t => exact ⟨t, rfl⟩
  | _ => cases h

theorem exists_array (h : v.array?.isSome = true) : ∃ items, v = .array items := by
  cases v with
  | array items => exact ⟨items, rfl⟩
  | _ => cases h

/-- What conforming hands back is a value that the signal takes. -/
theorem takes_of_conform (h : s.conform v = .accepted w) : s.Takes w := by
  unfold Takes
  cases ht : s.type with
  | enum =>
    obtain ⟨d, hd, -, rfl⟩ := conform_enum ht h
    exact ⟨d, hd, rfl⟩
  | bool =>
    simp only [conform, ht] at h
    exact (conformBool_eq_accepted h).1
  | number =>
    simp only [conform, ht] at h
    obtain ⟨hv, rfl⟩ := eq_of_ite_accepted h
    exact exists_number hv
  | string =>
    simp only [conform, ht] at h
    obtain ⟨hv, rfl⟩ := eq_of_ite_accepted h
    exact exists_string hv
  | array =>
    simp only [conform, ht] at h
    obtain ⟨hv, rfl⟩ := eq_of_ite_accepted h
    exact exists_array hv

/-- A value that the signal takes stays as it is. -/
theorem conform_eq_self (hs : s.WellFormed) (h : s.Takes v) : s.conform v = .accepted v := by
  unfold Takes at h
  unfold conform
  cases ht : s.type with
  | enum =>
    simp only [ht] at h ⊢
    obtain ⟨d, hd, rfl⟩ := h
    rw [declared?_eq_some hs hd (Json.looseEq_refl d.value)]
  | bool =>
    simp only [ht] at h ⊢
    obtain ⟨b, rfl⟩ := h
    rfl
  | number | string | array =>
    simp only [ht] at h ⊢
    obtain ⟨x, rfl⟩ := h
    rfl

/-- The values that a signal takes are those that stay as they are. -/
theorem conform_eq_self_iff (hs : s.WellFormed) : s.conform v = .accepted v ↔ s.Takes v :=
  ⟨takes_of_conform, conform_eq_self hs⟩

/-- An accepted value that the signal does not take is a number that stands for a truth value, or is
no declared value. -/
theorem not_takes_iff (h : s.conform v = .accepted w) :
    ¬ s.Takes v ↔
      (s.type = .bool ∧ v.isNumber = true) ∨ (s.type = .enum ∧ ∀ d ∈ s.values, d.value ≠ v) := by
  have hsame : w = v → s.Takes v := fun heq => heq ▸ takes_of_conform h
  unfold Takes at hsame ⊢
  cases ht : s.type with
  | enum => simp
  | bool =>
    simp only [conform, ht] at h
    rcases (conformBool_eq_accepted h).2 with ⟨b, rfl⟩ | hv
    · simp [Json.isNumber, Json.number?]
    · obtain ⟨n, rfl⟩ := exists_number hv
      simp [Json.isNumber, Json.number?]
  | number | string | array =>
    simp only [conform, ht] at h hsame
    simpa using hsame (eq_of_ite_accepted h).2

/-! ## The value of a signal that cannot be computed -/

theorem defaultValue_of_default (h : s.default = some v) : s.defaultValue = v := by
  simp [defaultValue, h]

/-- Without a declared default the signal takes the value that stands in. -/
theorem takes_defaultValue_of_none (hs : s.WellFormed) (h : s.default = none) :
    s.Takes s.defaultValue := by
  unfold Takes defaultValue
  rw [h]
  cases ht : s.type with
  | enum =>
    obtain ⟨d, rest, hvalues⟩ := List.exists_cons_of_ne_nil (hs.values_ne_nil ht)
    rw [hvalues]
    exact ⟨d, by simp, rfl⟩
  | bool | number | string | array => exact ⟨_, rfl⟩

/-- The signal takes the value that stands in exactly if it takes its declared default. -/
theorem takes_defaultValue_iff (hs : s.WellFormed) :
    s.Takes s.defaultValue ↔ ∀ v, s.default = some v → s.Takes v := by
  constructor
  · intro h v hv
    rwa [defaultValue_of_default hv] at h
  · intro h
    cases hv : s.default with
    | none => exact takes_defaultValue_of_none hs hv
    | some v => rw [defaultValue_of_default hv]; exact h v hv

/-- The value that stands in always conforms. -/
theorem conform_defaultValue (hs : s.WellFormed) : ∃ w, s.conform s.defaultValue = .accepted w := by
  cases hv : s.default with
  | none => exact ⟨_, conform_eq_self hs (takes_defaultValue_of_none hs hv)⟩
  | some v =>
    rw [defaultValue_of_default hv]
    exact hs.default_conforms v hv

end Telltale.Signal
