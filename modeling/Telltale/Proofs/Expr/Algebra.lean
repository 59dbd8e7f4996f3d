import Telltale.Proofs.Expr.Connectives

/-!
# The algebra of the connectives

Conjunction and disjunction of expressions stop at the first term that settles them and carry along
whether some term before was undecided. Their values are still those of Kleene's connectives, with
all laws of these.

* `Verdict.value?` — the value of a connective that comes to a verdict.
* `Expr.eval_all`, `Expr.eval_any`, `Expr.eval_not` — the values of the connectives, from the verdicts
  of their terms.
* `Expr.connectives_kleene` — so order, repetition and nesting of terms do not matter, and a negation
  moves inside.
-/

namespace Telltale

namespace Verdict

/-! ## Negation of rows -/

theorem neg_both (v w : Verdict) : neg (both v w) = either (neg v) (neg w) := by
  cases v <;> cases w <;> rfl

theorem neg_either (v w : Verdict) : neg (either v w) = both (neg v) (neg w) := by
  cases v <;> cases w <;> rfl

theorem neg_all (vs : List Verdict) : neg (all vs) = any (vs.map neg) := by
  induction vs with
  | nil => rfl
  | cons v vs ih => rw [all_cons, neg_both, ih, List.map_cons, any_cons]

theorem neg_any (vs : List Verdict) : neg (any vs) = all (vs.map neg) := by
  induction vs with
  | nil => rfl
  | cons v vs ih => rw [any_cons, neg_either, ih, List.map_cons, all_cons]

/-! ## Values -/

/-- The value of a connective that comes to a verdict; an undecided one has none. -/
def value? : Verdict → Option Json
  | .holds => some (.bool true)
  | .fails => some (.bool false)
  | .undecided => none

theorem value?_ofBool? (b : Option Bool) : (ofBool? b).value? = b.map .bool := by
  cases b with
  | none => rfl
  | some b => cases b <;> rfl

end Verdict

namespace Expr

variable {v : Vocabulary} {cs : Combiners} {s : Scene}

/-- Where an expression has no values but truths, its value is that of its verdict. -/
theorem eval_eq_value? {e : Expr} {b : Option Bool} (h : e.eval v cs s = b.map .bool) :
    e.eval v cs s = (e.verdict v cs s).value? := by
  rw [verdict_of_eval_map_bool h, Verdict.value?_ofBool?, h]

theorem eval_all (terms : List Expr) :
    eval v cs s (.all terms) = (Verdict.all (terms.map (verdict v cs s))).value? := by
  rw [eval_eq_value? (eval_all_eq_map terms), verdict_all]

theorem eval_any (terms : List Expr) :
    eval v cs s (.any terms) = (Verdict.any (terms.map (verdict v cs s))).value? := by
  rw [eval_eq_value? (eval_any_eq_map terms), verdict_any]

theorem eval_not (e : Expr) : eval v cs s (.not e) = (e.verdict v cs s).neg.value? := by
  rw [eval_eq_value? (eval_not_eq_map e), verdict_not]

/-! ## Terms in rows -/

theorem map_verdict_not (terms : List Expr) :
    (terms.map Expr.not).map (verdict v cs s) = (terms.map (verdict v cs s)).map Verdict.neg := by
  rw [List.map_map, List.map_map]
  exact List.map_congr_left fun t _ => verdict_not t

theorem mem_map_verdict_iff {terms terms' : List Expr} (h : ∀ t, t ∈ terms ↔ t ∈ terms')
    (w : Verdict) : w ∈ terms.map (verdict v cs s) ↔ w ∈ terms'.map (verdict v cs s) := by
  simp only [List.mem_map, h]

/-- **The connectives of expressions are Kleene's.** Read as verdicts, a conjunction and a
disjunction come to those of the verdicts of their terms. So they stay as they are when terms are
permuted or repeated, as long as the same ones are there, and when the terms of a conjunction that
stands in a conjunction are taken out into it, or those of a disjunction in a disjunction; and the
negation of either is the other one of the negated terms. -/
theorem connectives_kleene (v : Vocabulary) (cs : Combiners) (s : Scene) (terms : List Expr) :
    (eval v cs s (.all terms) = (Verdict.all (terms.map (verdict v cs s))).value? ∧
      eval v cs s (.any terms) = (Verdict.any (terms.map (verdict v cs s))).value?) ∧
    (∀ terms', (∀ t, t ∈ terms' ↔ t ∈ terms) →
      eval v cs s (.all terms') = eval v cs s (.all terms) ∧
        eval v cs s (.any terms') = eval v cs s (.any terms)) ∧
    (∀ before after,
      eval v cs s (.all (before ++ .all terms :: after)) =
          eval v cs s (.all (before ++ terms ++ after)) ∧
        eval v cs s (.any (before ++ .any terms :: after)) =
          eval v cs s (.any (before ++ terms ++ after))) ∧
    eval v cs s (.not (.all terms)) = eval v cs s (.any (terms.map .not)) ∧
    eval v cs s (.not (.any terms)) = eval v cs s (.all (terms.map .not)) := by
  refine ⟨⟨eval_all terms, eval_any terms⟩, fun terms' hsame => ?_, fun before after => ?_, ?_, ?_⟩
  · rw [eval_all, eval_all, eval_any, eval_any]
    exact ⟨congrArg _ (Verdict.isConnective_all.same_members (mem_map_verdict_iff hsame)),
      congrArg _ (Verdict.isConnective_any.same_members (mem_map_verdict_iff hsame))⟩
  · simp only [eval_all, eval_any, List.map_append, List.map_cons, verdict_all, verdict_any]
    exact ⟨congrArg _ (Verdict.isConnective_all.splice _ _ _),
      congrArg _ (Verdict.isConnective_any.splice _ _ _)⟩
  · rw [eval_not, verdict_all, eval_any, map_verdict_not, Verdict.neg_all]
  · rw [eval_not, verdict_any, eval_all, map_verdict_not, Verdict.neg_any]

end Expr

/-- A polled frame, with nothing beside it. -/
def Scene.polled (data : List (String × Json)) : Scene :=
  ⟨⟨.dashboard, none, ⟨0, 0⟩, .object data⟩, .absent, .empty, ⟨0, 0⟩⟩

/-- Nothing is known of the shields, but the empty tank settles a conjunction, wherever it stands. -/
theorem Expr.connectives_kleene_tank :
    let s := Scene.polled [("Docked", .bool true), ("Fuel", .number .zero)]
    let terms : List Expr := [.path "Docked" none, .path "Shields" none, .path "Fuel" none]
    let terms' : List Expr :=
      [.path "Fuel" none, .path "Shields" none, .path "Docked" none, .path "Shields" none]
    terms.map (verdict ⟨[], []⟩ .absent s) = [.holds, .undecided, .fails] ∧
    (∀ t, t ∈ terms' ↔ t ∈ terms) ∧
    eval ⟨[], []⟩ .absent s (.all terms') = some (.bool false) ∧
    eval ⟨[], []⟩ .absent s (.any terms') = some (.bool true) := by
  intro s terms terms'
  have hverdicts : terms.map (verdict ⟨[], []⟩ .absent s) = [.holds, .undecided, .fails] := by
    decide +kernel
  have hsame : ∀ t, t ∈ terms' ↔ t ∈ terms := by
    intro t
    simp only [terms, terms', List.mem_cons, List.not_mem_nil, or_false]
    tauto
  obtain ⟨⟨hall, hany⟩, hpermuted, -⟩ := connectives_kleene ⟨[], []⟩ .absent s terms
  obtain ⟨hall', hany'⟩ := hpermuted terms' hsame
  rw [hall', hany', hall, hany, hverdicts]
  exact ⟨rfl, hsame, rfl, rfl⟩

end Telltale
