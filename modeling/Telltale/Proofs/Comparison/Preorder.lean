import Telltale.Proofs.Comparison.Integers
import Telltale.Proofs.Json.Kinds
import Telltale.Proofs.Snapshot.ClosedWorld

/-!
# One order of values

The six comparisons are the readings of one preorder: numbers are ordered by their values, and what
lies at the same place of the order is what is loosely equal. Everything else is loosely equal to
some values and in order with none.

* `Comparison.order?_congr`, `Comparison.apply_congr` — loosely equal values compare alike, so
  that a set holds all members of a class or none (`Json.memberOf_congr`).
* `Comparison.exists_numbers` — an ordering is decided between numbers alone, where it is that of
  the units of their doubles (`Comparison.apply_numbers`).
* `Signal.filter_declared_eq_toList`, `Signal.declared?_of_perm` — the first declared value of a
  class is the only one, and stays the same in whatever order the values are declared.
* `loose_preorder` — the comparisons are consistent, and an enumerated signal of an accepted catalog
  has one entry for each class, which all questions about a value come down to.
-/

namespace Telltale

/-! ## Classes of values -/

namespace Json

/-- A set holds all members of a class or none. -/
theorem memberOf_congr {a b : Json} (h : a.looseEq b = true) (set : List Json) :
    a.memberOf set = b.memberOf set := by
  unfold memberOf
  congr 1
  funext v
  rw [looseEq_comm v a, looseEq_comm v b, looseEq_congr h]

end Json

namespace Comparison

variable {a a' b b' c : Json}

/-- Only numbers have an order. -/
theorem order?_eq_none (h : a.isNumber = false ∨ b.isNumber = false) : order? a b = none := by
  cases a with
  | number m =>
    cases b with
    | number n => rcases h with h | h <;> cases h
    | null | bool | string | array | object => rfl
  | null | bool | string | array | object => rfl

/-- Loosely equal values have the same place in the order. -/
theorem order?_congr (ha : a.looseEq a' = true) (hb : b.looseEq b' = true) :
    order? a b = order? a' b' := by
  rcases Json.looseEq_iff.mp ha with ⟨m, m', rfl, rfl, hm⟩ | ⟨hna, hna', -⟩
  · rcases Json.looseEq_iff.mp hb with ⟨n, n', rfl, rfl, hn⟩ | ⟨hnb, hnb', -⟩
    · simp only [Number.sameValue, Double.sameValue, beq_iff_eq] at hm hn
      simp only [order?, Number.compareTo, Double.compareTo, hm, hn]
    · rw [order?_eq_none (.inr hnb), order?_eq_none (.inr hnb')]
  · rw [order?_eq_none (.inl hna), order?_eq_none (.inl hna')]

/-- Loosely equal values compare alike. -/
theorem apply_congr (op : Comparison) (ha : a.looseEq a' = true) (hb : b.looseEq b' = true) :
    op.apply a b = op.apply a' b' := by
  refine op.apply_eq (fun _ => ?_) (order?_congr ha hb)
  calc a.looseEq b = a'.looseEq b := Json.looseEq_congr ha b
    _ = b.looseEq a' := Json.looseEq_comm a' b
    _ = b'.looseEq a' := Json.looseEq_congr hb a'
    _ = a'.looseEq b' := Json.looseEq_comm b' a'

/-! ## Orderings -/

theorem apply_eq_none (op : Comparison) (hop : op.isOrdering = true)
    (h : a.isNumber = false ∨ b.isNumber = false) : op.apply a b = none := by
  cases op with
  | eq | ne => cases hop
  | gt | gte | lt | lte => simp only [apply, order?_eq_none h, Option.map_none]

/-- An ordering is decided between numbers alone. -/
theorem exists_numbers {op : Comparison} (hop : op.isOrdering = true) {r : Bool}
    (h : op.apply a b = some r) : ∃ m n, a = .number m ∧ b = .number n := by
  cases ha : a.isNumber with
  | false => rw [op.apply_eq_none hop (.inl ha)] at h; cases h
  | true =>
    cases hb : b.isNumber with
    | false => rw [op.apply_eq_none hop (.inr hb)] at h; cases h
    | true =>
      obtain ⟨m, rfl⟩ := Signal.exists_number ha
      obtain ⟨n, rfl⟩ := Signal.exists_number hb
      exact ⟨m, n, rfl, rfl⟩

/-- An ordering that is transitive between integers is so between values. -/
theorem apply_trans {op : Comparison} (hop : op.isOrdering = true)
    (htrans : ∀ x y z, op.ofIntegers x y = true → op.ofIntegers y z = true →
      op.ofIntegers x z = true)
    (hab : op.apply a b = some true) (hbc : op.apply b c = some true) :
    op.apply a c = some true := by
  obtain ⟨l, m, rfl, rfl⟩ := exists_numbers hop hab
  obtain ⟨-, n, -, rfl⟩ := exists_numbers hop hbc
  rw [apply_numbers, Option.some.injEq] at hab hbc ⊢
  exact htrans _ _ _ hab hbc

/-- The comparison that says of `b` and `a` what this one says of `a` and `b`. -/
def swap : Comparison → Comparison
  | .eq => .eq
  | .ne => .ne
  | .gt => .lt
  | .gte => .lte
  | .lt => .gt
  | .lte => .gte

theorem apply_swap (op : Comparison) (a b : Json) : op.swap.apply b a = op.apply a b := by
  have horder : order? b a = (order? a b).map Ordering.swap := by
    cases a with
    | number m =>
      cases b with
      | number n => exact congrArg some (Int.compare_swap _ _).symm
      | null | bool | string | array | object => rfl
    | null | bool | string | array | object => cases b <;> rfl
  have hloose := Json.looseEq_comm b a
  cases op with
  | eq | ne => simp only [swap, apply, hloose]
  | gt | gte | lt | lte =>
    simp only [swap, apply, horder, Option.map_map]
    congr 1
    funext o
    cases o <;> rfl

/-! ## The laws -/

/-- The comparisons are the readings of one preorder. -/
structure Consistent : Prop where
  /-- Loose equality is an equivalence relation, -/
  equivalence : Equivalence fun a b : Json => a.looseEq b = true
  /-- and which class a value is of is all that a comparison sees of it, -/
  congr : ∀ (op : Comparison) {a a' b b' : Json}, a.looseEq a' = true → b.looseEq b' = true →
    op.apply a b = op.apply a' b'
  /-- and all that a set sees of it. -/
  member : ∀ {a b : Json}, a.looseEq b = true → ∀ set, a.memberOf set = b.memberOf set
  /-- Exactly one of three comparisons holds of two numbers, and the others fail. -/
  trichotomy : ∀ m n : Number, ∃ op ∈ [lt, eq, gt], ∀ op' ∈ [lt, eq, gt],
    op'.apply (.number m) (.number n) = some (decide (op' = op))
  /-- The other orderings of numbers are alternatives. -/
  alternative : ∀ m n : Number,
    (lte.apply (.number m) (.number n) = some true ↔
      lt.apply (.number m) (.number n) = some true ∨
        eq.apply (.number m) (.number n) = some true) ∧
    (gte.apply (.number m) (.number n) = some true ↔
      gt.apply (.number m) (.number n) = some true ∨
        eq.apply (.number m) (.number n) = some true)
  /-- Every ordering of numbers is decided, -/
  decided : ∀ (op : Comparison) (m n : Number), ∃ r, op.apply (.number m) (.number n) = some r
  /-- and no ordering of anything else. -/
  undecided : ∀ op : Comparison, op.isOrdering = true → ∀ a b : Json,
    a.isNumber = false ∨ b.isNumber = false → op.apply a b = none
  /-- Equality and its negation are decided of all values. -/
  equality : ∀ a b : Json, eq.apply a b = some (a.looseEq b)
  negation : ∀ a b : Json, ne.apply a b = (eq.apply a b).map not
  /-- Orderings are read from both ends, -/
  swap_lt : ∀ a b : Json, lt.apply a b = gt.apply b a
  swap_lte : ∀ a b : Json, lte.apply a b = gte.apply b a
  /-- and go on from one end to the other. -/
  lt_trans : ∀ {a b c : Json}, lt.apply a b = some true → lt.apply b c = some true →
    lt.apply a c = some true
  lte_trans : ∀ {a b c : Json}, lte.apply a b = some true → lte.apply b c = some true →
    lte.apply a c = some true

theorem exists_one_of_three (m n : Number) : ∃ op ∈ [lt, eq, gt], ∀ op' ∈ [lt, eq, gt],
    op'.apply (.number m) (.number n) = some (decide (op' = op)) := by
  simp only [apply_numbers]
  generalize m.toDouble.units = x
  generalize n.toDouble.units = y
  rcases Int.lt_trichotomy x y with hlt | heq | hgt
  · refine ⟨lt, by simp, ?_⟩
    have hne : x ≠ y := Int.ne_of_lt hlt
    have hle : ¬ y < x := Int.lt_asymm hlt
    simpa [ofIntegers, hlt, hne] using hle
  · refine ⟨eq, by simp, ?_⟩
    simp [ofIntegers, heq]
  · refine ⟨gt, by simp, ?_⟩
    have hne : x ≠ y := Int.ne_of_gt hgt
    have hle : ¬ x < y := Int.lt_asymm hgt
    simpa [ofIntegers, hgt, hne] using hle

theorem consistent : Consistent where
  equivalence := ⟨Json.looseEq_refl, Json.looseEq_symm, Json.looseEq_trans⟩
  congr op _ _ _ _ := op.apply_congr
  member := Json.memberOf_congr
  trichotomy := exists_one_of_three
  alternative m n := by
    simp only [apply_numbers, Option.some.injEq, ofIntegers, decide_eq_true_eq]
    omega
  decided op m n := ⟨_, op.apply_numbers m n⟩
  undecided op hop _ _ h := op.apply_eq_none hop h
  equality _ _ := rfl
  negation _ _ := rfl
  swap_lt a b := (lt.apply_swap a b).symm
  swap_lte a b := (lte.apply_swap a b).symm
  lt_trans := apply_trans rfl fun x y z hxy hyz => by
    simp only [ofIntegers, decide_eq_true_eq] at hxy hyz ⊢
    exact Int.lt_trans hxy hyz
  lte_trans := apply_trans rfl fun x y z hxy hyz => by
    simp only [ofIntegers, decide_eq_true_eq] at hxy hyz ⊢
    exact Int.le_trans hxy hyz

end Comparison

/-! ## Declared values -/

namespace Signal

variable {s : Signal} {v : Json}

/-- The first declared value of a class is the only one. -/
theorem filter_declared_eq_toList (hs : s.WellFormed) (v : Json) :
    s.values.filter (·.value.looseEq v) = (s.declared? v).toList := by
  cases hsome : s.declared? v with
  | none =>
    rw [declared?, ← List.head?_filter] at hsome
    exact List.head?_eq_none_iff.mp hsome
  | some d =>
    obtain ⟨hd, hloose⟩ := of_declared? hsome
    exact filter_declared hs hd hloose

/-- It stays the same in whatever order the values are declared. -/
theorem declared?_of_perm (hs : s.WellFormed) {t : Signal} (h : t.values.Perm s.values)
    (v : Json) : t.declared? v = s.declared? v := by
  have hfilter := h.filter (·.value.looseEq v)
  rw [filter_declared_eq_toList hs] at hfilter
  rw [declared?, ← List.head?_filter]
  cases hsome : s.declared? v with
  | none =>
    rw [hsome] at hfilter
    rw [hfilter.eq_nil, List.head?_nil]
  | some d =>
    rw [hsome] at hfilter
    rw [hfilter.eq_singleton, List.head?_cons]

theorem declares_eq_isSome (s : Signal) (v : Json) : s.declares v = (s.declared? v).isSome := by
  rw [Bool.eq_iff_iff, declares, declared?, List.any_eq_true, List.find?_isSome]

/-- A value conforms to an enumerated signal as the declared value of its class. -/
theorem conform_eq_elim (ht : s.type = .enum) (v : Json) :
    s.conform v = (s.declared? v).elim (.undeclared v) fun d => .accepted d.value := by
  unfold conform
  rw [ht]
  cases s.declared? v <;> rfl

/-- All questions about a value come down to one declared value, and not to a first one. -/
structure PicksOne (s : Signal) : Prop where
  /-- At most one declared value is of the class of a value, -/
  unique : ∀ v, (s.values.filter (·.value.looseEq v)).length ≤ 1
  /-- and if there is one, it is the answer; -/
  picked : ∀ v, ∀ d ∈ s.values, d.value.looseEq v = true →
    s.declares v = true ∧ s.labelFor? v = d.label ∧ s.conform v = .accepted d.value
  /-- if there is none, there is no answer. -/
  unpicked : ∀ v, (∀ d ∈ s.values, d.value.looseEq v = false) →
    s.declares v = false ∧ s.labelFor? v = none ∧ s.conform v = .undeclared v
  /-- A signal that declares the same values in another order has the same answers. -/
  reordered : ∀ t : Signal, t.type = .enum → t.values.Perm s.values → ∀ v,
    t.declares v = s.declares v ∧ t.labelFor? v = s.labelFor? v ∧ t.conform v = s.conform v

theorem picksOne (hs : s.WellFormed) (ht : s.type = .enum) : s.PicksOne where
  unique v := by
    rw [filter_declared_eq_toList hs]
    exact Option.length_toList_le
  picked v d hd hloose := by
    have hsome := declared?_eq_some hs hd hloose
    refine ⟨?_, ?_, ?_⟩
    · rw [declares_eq_isSome, hsome, Option.isSome_some]
    · rw [labelFor?, hsome, Option.bind_some]
    · rw [conform_eq_elim ht, hsome, Option.elim_some]
  unpicked v hnone := by
    have hfind : s.declared? v = none :=
      List.find?_eq_none.mpr fun d hd hloose => by
        rw [hnone d hd] at hloose
        cases hloose
    refine ⟨?_, ?_, ?_⟩
    · rw [declares_eq_isSome, hfind, Option.isSome_none]
    · rw [labelFor?, hfind, Option.bind_none]
    · rw [conform_eq_elim ht, hfind, Option.elim_none]
  reordered t ht' h v := by
    have hsame := declared?_of_perm hs h v
    refine ⟨?_, ?_, ?_⟩
    · rw [declares_eq_isSome, declares_eq_isSome, hsame]
    · rw [labelFor?, labelFor?, hsame]
    · rw [conform_eq_elim ht, conform_eq_elim ht', hsame]

end Signal

/-- **Comparisons are consistent, and so are the questions about declared values**: loose equality
is an equivalence relation that fits with the orderings, and in an accepted catalog no two declared
values of an enumerated signal share a class. -/
theorem loose_preorder :
    Comparison.Consistent ∧
    ∀ c : Catalog, c.Accepted → ∀ s ∈ c.signals, s.type = .enum → s.PicksOne :=
  ⟨Comparison.consistent, fun _ hc _ hs ht => Signal.picksOne (hc.wellFormed hs) ht⟩

theorem loose_preorder_levels :
    levels.Accepted ∧ ∃ s ∈ levels.signals, s.type = .enum ∧ s.PicksOne ∧
      s.conform (.number (.double (.ofInt 1))) = .accepted (.number .one) := by
  have hmem : levels.signals[0] ∈ levels.signals := List.getElem_mem (by decide)
  have hpicks := loose_preorder.2 levels accepted_levels _ hmem rfl
  refine ⟨accepted_levels, _, hmem, rfl, hpicks, ?_⟩
  have hone : Json.looseEq (.number .one) (.number (.double (.ofInt 1))) = true := by
    decide +kernel
  have hdeclared : ⟨.number .one, none⟩ ∈ levels.signals[0].values :=
    List.mem_cons_of_mem _ List.mem_cons_self
  exact (hpicks.picked _ _ hdeclared hone).2.2

end Telltale
