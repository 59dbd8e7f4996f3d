import Mathlib.Data.List.Lex
import Telltale.Proofs.Expr.Written

/-!
# Places in expressions

A place in an expression is told by the numbers of the children on the way to it. In the
lexicographic order of these numbers an expression comes before whatever stands in it, and what
stands in one child before what stands in a later one.

* `Expr.at?` — the expression at a place. What is at some place is what stands inside
  (`Expr.inside_iff_exists_at?`).
* `Expr.subterms_eq_cons` — the subterms are the expression and the subterms of its children.
* `Expr.findSome?_subterms_eq_some_iff` — so a search through the subterms finds what comes first.
-/

namespace Telltale

/-- A search through a list finds what the first member has that has anything. -/
theorem findSome?_eq_some_iff_getElem? {l : List α} {f : α → Option β} {b : β} :
    l.findSome? f = some b ↔
      ∃ (i : Nat) (a : α), l[i]? = some a ∧ f a = some b ∧
        ∀ j < i, ∀ a' : α, l[j]? = some a' → f a' = none := by
  rw [List.findSome?_eq_some_iff]
  constructor
  · rintro ⟨before, a, after, rfl, hb, hbefore⟩
    refine ⟨before.length, a, by simp, hb, fun j hj a' ha' => ?_⟩
    rw [List.getElem?_append_left hj] at ha'
    exact hbefore a' (List.mem_of_getElem? ha')
  · rintro ⟨i, a, ha, hb, hfirst⟩
    obtain ⟨hi, rfl⟩ := List.getElem?_eq_some_iff.mp ha
    refine ⟨l.take i, l[i], l.drop (i + 1), ?_, hb, fun a' ha' => ?_⟩
    · rw [← List.drop_eq_getElem_cons hi, List.take_append_drop]
    · obtain ⟨j, hj, rfl⟩ := List.mem_take_iff_getElem.mp ha'
      have hlt : j < i := by omega
      exact hfirst j hlt _ (List.getElem?_eq_getElem (by omega))

/-- A search through lists in a row is a search for the first list in which it finds anything. -/
theorem findSome?_flatMap {l : List α} {g : α → List β} {f : β → Option γ} :
    (l.flatMap g).findSome? f = l.findSome? fun a => (g a).findSome? f := by
  induction l with
  | nil => rfl
  | cons a rest ih =>
    rw [List.flatMap_cons, List.findSome?_append, List.findSome?_cons, ih]
    cases (g a).findSome? f <;> rfl

namespace Expr

/-- The expression at a place. -/
def at? (e : Expr) : List Nat → Option Expr
  | [] => some e
  | i :: rest => e.children[i]?.bind (·.at? rest)

@[simp] theorem at?_nil (e : Expr) : e.at? [] = some e := rfl

theorem at?_cons (e : Expr) (i : Nat) (rest : List Nat) :
    e.at? (i :: rest) = e.children[i]?.bind (·.at? rest) := rfl

theorem at?_cons_eq_some_iff {e t : Expr} {i : Nat} {rest : List Nat} :
    e.at? (i :: rest) = some t ↔ ∃ c, e.children[i]? = some c ∧ c.at? rest = some t := by
  rw [at?_cons, Option.bind_eq_some_iff]

/-! ## What stands inside -/

/-- The subterms are the expression itself and those of its children, in order. -/
theorem subterms_eq_cons (e : Expr) : e.subterms = e :: e.children.flatMap subterms := by
  cases e with
  | path | bitfield | event | recent | literal => rfl
  | map | compare | not => simp [subterms, children]
  | firstMatch cases default =>
    rw [subterms, subtermsOfCases_eq_flatMap, children, List.flatMap_map]
  | all | any | combine => rw [subterms, subtermsOfTerms_eq_flatMap, children]

/-- What is at some place is what stands inside, at any depth. -/
theorem inside_iff_exists_at? {t e : Expr} : Inside t e ↔ ∃ place, e.at? place = some t := by
  constructor
  · intro h
    induction e using induction_on_children with
    | h e ih =>
      rcases h.eq_or_inside_child with rfl | ⟨c, hc, h⟩
      · exact ⟨[], rfl⟩
      · obtain ⟨rest, hrest⟩ := ih c hc h
        obtain ⟨i, hi⟩ := List.mem_iff_getElem?.mp hc
        exact ⟨i :: rest, at?_cons_eq_some_iff.mpr ⟨c, hi, hrest⟩⟩
  · rintro ⟨place, h⟩
    induction place generalizing e with
    | nil =>
      cases h
      exact .self
    | cons i rest ih =>
      obtain ⟨c, hc, h⟩ := at?_cons_eq_some_iff.mp h
      exact inside_of_mem_children (List.mem_of_getElem? hc) (ih h)

/-- The list of subterms has what stands inside, and no more. -/
theorem mem_subterms_iff_inside {t e : Expr} : t ∈ e.subterms ↔ Inside t e := by
  refine ⟨fun h => ?_, Inside.mem_subterms⟩
  induction e using induction_on_children with
  | h e ih =>
    rw [subterms_eq_cons, List.mem_cons, List.mem_flatMap] at h
    rcases h with rfl | ⟨c, hc, h⟩
    · exact .self
    · exact inside_of_mem_children hc (ih c hc h)

/-! ## What comes first -/

/-- Before a place in a child comes the expression itself, then every place in an earlier child, and
then every earlier place in that child. -/
theorem forall_lt_cons {P : List Nat → Prop} {i : Nat} {rest : List Nat} :
    (∀ place < i :: rest, P place) ↔
      P [] ∧ (∀ j < i, ∀ place, P (j :: place)) ∧ ∀ place < rest, P (i :: place) := by
  constructor
  · intro h
    exact ⟨h _ (List.nil_lt_cons _ _),
      fun j hj place => h _ (List.cons_lt_cons_iff.mpr (.inl hj)),
      fun place hplace => h _ (List.cons_lt_cons_iff.mpr (.inr ⟨rfl, hplace⟩))⟩
  · rintro ⟨hself, hearlier, hchild⟩ place hplace
    cases place with
    | nil => exact hself
    | cons j place =>
      rcases List.cons_lt_cons_iff.mp hplace with hj | ⟨rfl, hlt⟩
      · exact hearlier j hj place
      · exact hchild place hlt

section FindSome

variable {β : Type} {f : Expr → Option β} {b : β}

/-- A search looks at the expression first and then through its children. -/
theorem findSome?_subterms (e : Expr) :
    e.subterms.findSome? f = (f e).or (e.children.findSome? fun c => c.subterms.findSome? f) := by
  rw [subterms_eq_cons, List.findSome?_cons, findSome?_flatMap]
  cases f e <;> rfl

/-- A search that finds nothing has looked at every place. -/
theorem findSome?_subterms_eq_none_iff {e : Expr} :
    e.subterms.findSome? f = none ↔ ∀ place t, e.at? place = some t → f t = none := by
  rw [List.findSome?_eq_none_iff]
  constructor
  · intro h place t ht
    exact h t (mem_subterms_iff_inside.mpr (inside_iff_exists_at?.mpr ⟨place, ht⟩))
  · intro h t ht
    obtain ⟨place, ht⟩ := inside_iff_exists_at?.mp (mem_subterms_iff_inside.mp ht)
    exact h place t ht

/-- **A search through the subterms finds what is at the first place.** -/
theorem findSome?_subterms_eq_some_iff {e : Expr} :
    e.subterms.findSome? f = some b ↔
      ∃ place t, e.at? place = some t ∧ f t = some b ∧
        ∀ earlier < place, ∀ t', e.at? earlier = some t' → f t' = none := by
  induction e using induction_on_children with
  | h e ih =>
    rw [findSome?_subterms]
    cases hself : f e with
    | some b' =>
      constructor
      · intro h
        cases h
        exact ⟨[], e, rfl, hself, fun earlier hlt => absurd hlt (List.not_lt_nil earlier)⟩
      -- nothing comes before the expression itself, so no other place is the first one
      · rintro ⟨place, t, ht, hb, hfirst⟩
        cases place with
        | nil =>
          cases ht
          exact hself.symm.trans hb
        | cons i rest =>
          have hnone := hfirst [] (List.nil_lt_cons i rest) e rfl
          rw [hself] at hnone
          cases hnone
    | none =>
      rw [Option.none_or, findSome?_eq_some_iff_getElem?]
      constructor
      · rintro ⟨i, c, hi, hc, hearlier⟩
        obtain ⟨rest, t, ht, hb, hrest⟩ := (ih c (List.mem_of_getElem? hi)).mp hc
        refine ⟨i :: rest, t, at?_cons_eq_some_iff.mpr ⟨c, hi, ht⟩, hb, ?_⟩
        refine forall_lt_cons.mpr ⟨?_, fun j hj place t' ht' => ?_, fun place hlt t' ht' => ?_⟩
        · rintro t' ht'
          cases ht'
          exact hself
        · obtain ⟨c', hc', ht'⟩ := at?_cons_eq_some_iff.mp ht'
          exact findSome?_subterms_eq_none_iff.mp (hearlier j hj c' hc') place t' ht'
        · obtain ⟨c', hc', ht'⟩ := at?_cons_eq_some_iff.mp ht'
          obtain rfl : c = c' := Option.some.inj (hi.symm.trans hc')
          exact hrest place hlt t' ht'
      · rintro ⟨place, t, ht, hb, hfirst⟩
        cases place with
        | nil =>
          cases ht
          rw [hself] at hb
          cases hb
        | cons i rest =>
          obtain ⟨c, hi, ht⟩ := at?_cons_eq_some_iff.mp ht
          obtain ⟨-, hearlier, hchild⟩ := forall_lt_cons.mp hfirst
          refine ⟨i, c, hi, (ih c (List.mem_of_getElem? hi)).mpr ⟨rest, t, ht, hb, ?_⟩, ?_⟩
          · exact fun place hlt t' ht' =>
              hchild place hlt t' (at?_cons_eq_some_iff.mpr ⟨c, hi, ht'⟩)
          · exact fun j hj c' hc' => findSome?_subterms_eq_none_iff.mpr fun place t' ht' =>
              hearlier j hj place t' (at?_cons_eq_some_iff.mpr ⟨c', hc', ht'⟩)

end FindSome

end Expr

end Telltale
