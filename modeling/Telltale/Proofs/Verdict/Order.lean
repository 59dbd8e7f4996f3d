import Mathlib.Data.Finset.Lattice.Fold
import Mathlib.Data.List.Forall2
import Telltale.Verdict

/-!
# The two orders of verdicts

Verdicts are ordered by how much speaks for them: a failing one comes first, then an undecided one,
then a holding one. A conjunction is the least of its members and a disjunction the greatest, so
nothing matters but which verdicts there are among the members.

They are also ordered by how much is known: an undecided one may still become any other.

* `Verdict.both_eq_min`, `Verdict.either_eq_max` — the connectives of two verdicts.
* `Verdict.all_eq_inf`, `Verdict.any_eq_sup` — those of a row are bounds of the set of its members.
* `Verdict.IsConnective` — a way to join rows that does not see order, repetition or nesting;
  `Verdict.isConnective_all` and `Verdict.isConnective_any` have it of the two.
* `Verdict.Stays` — one verdict stays in another if the two are the same, unless the first is
  undecided. The connectives respect it (`Stays.both`, `Stays.either`, `Stays.all`, `Stays.any`).
-/

namespace Telltale.Verdict

/-! ## More or less true -/

/-- The place of a verdict in the order. -/
def rank : Verdict → Nat
  | .fails => 0
  | .undecided => 1
  | .holds => 2

theorem rank_injective : Function.Injective rank := by
  intro v w h
  cases v <;> cases w <;> first | rfl | cases h

instance : LinearOrder Verdict where
  le v w := v.rank ≤ w.rank
  le_refl v := Nat.le_refl v.rank
  le_trans _ _ _ := Nat.le_trans
  le_antisymm _ _ h h' := rank_injective (Nat.le_antisymm h h')
  le_total v w := Nat.le_total v.rank w.rank
  toDecidableLE v w := Nat.decLe v.rank w.rank
  toDecidableEq := inferInstance

instance : BoundedOrder Verdict where
  top := .holds
  le_top v := by cases v <;> decide
  bot := .fails
  bot_le v := by cases v <;> decide

theorem both_eq_min (v w : Verdict) : both v w = min v w := by
  cases v <;> cases w <;> decide

theorem either_eq_max (v w : Verdict) : either v w = max v w := by
  cases v <;> cases w <;> decide

/-! ## Rows -/

theorem all_eq_inf (vs : List Verdict) : all vs = vs.toFinset.inf id := by
  induction vs with
  | nil => rfl
  | cons v vs ih =>
    rw [all_cons, both_eq_min, ih, List.toFinset_cons, Finset.inf_insert]
    rfl

theorem any_eq_sup (vs : List Verdict) : any vs = vs.toFinset.sup id := by
  induction vs with
  | nil => rfl
  | cons v vs ih =>
    rw [any_cons, either_eq_max, ih, List.toFinset_cons, Finset.sup_insert]
    rfl

theorem all_append (vs ws : List Verdict) : all (vs ++ ws) = both (all vs) (all ws) := by
  induction vs with
  | nil => simp
  | cons v vs ih => rw [List.cons_append, all_cons, all_cons, ih, both_assoc]

theorem any_append (vs ws : List Verdict) : any (vs ++ ws) = either (any vs) (any ws) := by
  induction vs with
  | nil => simp
  | cons v vs ih => rw [List.cons_append, any_cons, any_cons, ih, either_assoc]

/-- A way to join verdicts in a row that sees which ones there are, but not in what order or how
often, nor whether some of them were joined before. -/
structure IsConnective (join : List Verdict → Verdict) : Prop where
  same_members : ∀ {vs ws : List Verdict}, (∀ v, v ∈ vs ↔ v ∈ ws) → join vs = join ws
  splice : ∀ before vs after, join (before ++ join vs :: after) = join (before ++ vs ++ after)

theorem isConnective_all : IsConnective all where
  same_members h := by
    rw [all_eq_inf, all_eq_inf, List.toFinset.ext h]
  splice before vs after := by
    rw [all_append, all_cons, List.append_assoc, all_append, all_append]

theorem isConnective_any : IsConnective any where
  same_members h := by
    rw [any_eq_sup, any_eq_sup, List.toFinset.ext h]
  splice before vs after := by
    rw [any_append, any_cons, List.append_assoc, any_append, any_append]

/-! ## More or less known -/

/-- A verdict stays in another one: it is the same, unless it is undecided. -/
def Stays (v w : Verdict) : Prop := v = .undecided ∨ w = v

namespace Stays

variable {v v' w w' : Verdict}

theorem refl (v : Verdict) : Stays v v := .inr rfl

theorem of_undecided : Stays .undecided w := .inl rfl

theorem eq (h : Stays v w) (hv : v.isDefinite = true) : w = v := by
  rcases h with rfl | h
  · cases hv
  · exact h

theorem antisymm (h : Stays v w) (h' : Stays w v) : v = w := by
  rcases h with rfl | h
  · rcases h' with rfl | h'
    · rfl
    · exact h'
  · exact h.symm

theorem both (hv : Stays v v') (hw : Stays w w') : Stays (v.both w) (v'.both w') := by
  rcases hv with rfl | rfl
  · rcases hw with rfl | rfl
    · exact .of_undecided
    -- a failing member settles the conjunction, whatever becomes of the undecided one
    · cases w' with
      | fails => cases v' <;> exact .refl _
      | holds | undecided => exact .of_undecided
  · rcases hw with rfl | rfl
    · cases v' with
      | fails => exact .refl _
      | holds | undecided => exact .of_undecided
    · exact .refl _

theorem either (hv : Stays v v') (hw : Stays w w') : Stays (v.either w) (v'.either w') := by
  rcases hv with rfl | rfl
  · rcases hw with rfl | rfl
    · exact .of_undecided
    -- a holding member settles the disjunction, whatever becomes of the undecided one
    · cases w' with
      | holds => cases v' <;> exact .refl _
      | fails | undecided => exact .of_undecided
  · rcases hw with rfl | rfl
    · cases v' with
      | holds => exact .refl _
      | fails | undecided => exact .of_undecided
    · exact .refl _

theorem all {vs ws : List Verdict} (h : List.Forall₂ Stays vs ws) :
    Stays (Verdict.all vs) (Verdict.all ws) := by
  induction h with
  | nil => exact .refl _
  | cons hv _ ih =>
    rw [all_cons, all_cons]
    exact hv.both ih

theorem any {vs ws : List Verdict} (h : List.Forall₂ Stays vs ws) :
    Stays (Verdict.any vs) (Verdict.any ws) := by
  induction h with
  | nil => exact .refl _
  | cons hv _ ih =>
    rw [any_cons, any_cons]
    exact hv.either ih

end Stays

end Telltale.Verdict
