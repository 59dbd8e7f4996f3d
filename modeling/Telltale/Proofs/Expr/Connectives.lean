import Telltale.Expr.Eval
import Telltale.Proofs.Verdict.Order

/-!
# Expressions as verdicts

An expression is decided by the truth of its value and undecided without one. Read like that, the
connectives of expressions are those of verdicts, although they stop at the first term that settles
them.

* `Expr.verdict` — what an expression is decided to be; `Expr.verdict_iff` says which values that
  comes of.
* `Expr.verdict_all`, `Expr.verdict_any`, `Expr.verdict_not` — the connectives.
* `Verdict.all_map_ofBool`, `Verdict.all_of_undecided` — the verdicts of rows.
-/

namespace Telltale

namespace Verdict

/-! ## Negation -/

/-- Negation. -/
def neg : Verdict → Verdict
  | .holds => .fails
  | .fails => .holds
  | .undecided => .undecided

theorem neg_ofBool (b : Bool) : neg (ofBool b) = ofBool (!b) := by
  cases b <;> rfl

/-! ## Conjunction and disjunction -/

theorem both_ofBool (a b : Bool) : both (ofBool a) (ofBool b) = ofBool (a && b) := by
  cases a <;> cases b <;> rfl

theorem either_ofBool (a b : Bool) : either (ofBool a) (ofBool b) = ofBool (a || b) := by
  cases a <;> cases b <;> rfl

theorem all_map_ofBool (p : α → Bool) (l : List α) :
    all (l.map fun a => ofBool (p a)) = ofBool (l.all p) := by
  induction l with
  | nil => rfl
  | cons a l ih => rw [List.map_cons, all_cons, ih, both_ofBool, List.all_cons]

theorem any_map_ofBool (p : α → Bool) (l : List α) :
    any (l.map fun a => ofBool (p a)) = ofBool (l.any p) := by
  induction l with
  | nil => rfl
  | cons a l ih => rw [List.map_cons, any_cons, ih, either_ofBool, List.any_cons]

/-- A conjunction of undecided members is undecided, unless there are none. -/
theorem all_of_undecided {vs : List Verdict} (h : ∀ v ∈ vs, v = .undecided) :
    all vs = if vs = [] then .holds else .undecided := by
  induction vs with
  | nil => rfl
  | cons v vs ih =>
    obtain ⟨rfl, hvs⟩ := List.forall_mem_cons.mp h
    rw [all_cons, ih hvs, if_neg (List.cons_ne_nil _ _)]
    split <;> rfl

theorem any_of_undecided {vs : List Verdict} (h : ∀ v ∈ vs, v = .undecided) :
    any vs = if vs = [] then .fails else .undecided := by
  induction vs with
  | nil => rfl
  | cons v vs ih =>
    obtain ⟨rfl, hvs⟩ := List.forall_mem_cons.mp h
    rw [any_cons, ih hvs, if_neg (List.cons_ne_nil _ _)]
    split <;> rfl

end Verdict

/-! ## Truth -/

theorem Json.truthy_bit (word : BitVec 64) (i : Nat) :
    Json.truthy (some (Json.ofNat (bit word i))) = (bit word i == 1) := by
  unfold bit
  cases word.getLsbD i with
  | false => decide +kernel
  | true => decide +kernel

namespace Expr

variable {v : Vocabulary} {cs : Combiners} {s : Scene}

/-- What an expression is decided to be on a scene. -/
def verdict (v : Vocabulary) (cs : Combiners) (s : Scene) (e : Expr) : Verdict :=
  Verdict.ofBool? (e.decide v cs s)

theorem verdict_of_eval {e : Expr} {value : Json} (h : e.eval v cs s = some value) :
    e.verdict v cs s = Verdict.ofBool (Json.truthy (some value)) := by
  rw [verdict, decide, h]
  rfl

theorem verdict_of_eval_none {e : Expr} (h : e.eval v cs s = none) :
    e.verdict v cs s = .undecided := by
  rw [verdict, decide, h]
  rfl

theorem verdict_of_eval_map_bool {e : Expr} {b : Option Bool} (h : e.eval v cs s = b.map .bool) :
    e.verdict v cs s = Verdict.ofBool? b := by
  cases b with
  | none => exact verdict_of_eval_none h
  | some b => exact verdict_of_eval h

/-- An expression holds if its value is true, fails if it is false, and is undecided without one. -/
theorem verdict_iff (e : Expr) :
    (e.verdict v cs s = .holds ↔
      ∃ value, e.eval v cs s = some value ∧ Json.truthy (some value) = true) ∧
    (e.verdict v cs s = .fails ↔
      ∃ value, e.eval v cs s = some value ∧ Json.truthy (some value) = false) ∧
    (e.verdict v cs s = .undecided ↔ e.eval v cs s = none) := by
  cases h : e.eval v cs s with
  | none => simp [verdict_of_eval_none h]
  | some value =>
    rw [verdict_of_eval h]
    cases ht : Json.truthy (some value) <;> simp [Verdict.ofBool, ht]

/-! ## Connectives -/

theorem decideAll_cons (undecided : Bool) (e : Expr) (rest : List Expr) :
    decideAll v cs s undecided (e :: rest) =
      match e.decide v cs s with
      | none => decideAll v cs s true rest
      | some true => decideAll v cs s undecided rest
      | some false => some false := by
  rw [decideAll, decide]
  cases e.eval v cs s with
  | none => rfl
  | some t => cases ht : Json.truthy (some t) <;> simp [ht]

theorem decideAny_cons (undecided : Bool) (e : Expr) (rest : List Expr) :
    decideAny v cs s undecided (e :: rest) =
      match e.decide v cs s with
      | none => decideAny v cs s true rest
      | some true => some true
      | some false => decideAny v cs s undecided rest := by
  rw [decideAny, decide]
  cases e.eval v cs s with
  | none => rfl
  | some t => cases ht : Json.truthy (some t) <;> simp [ht]

/-- A first match goes by what its conditions are decided to be. -/
theorem evalCases_cons (default : Option Json) (condition : Expr) (value : Json)
    (rest : List (Expr × Json)) :
    evalCases v cs s default ((condition, value) :: rest) =
      match condition.decide v cs s with
      | none => none
      | some true => some value
      | some false => evalCases v cs s default rest := by
  rw [evalCases, decide]
  cases condition.eval v cs s with
  | none => rfl
  | some t => cases ht : Json.truthy (some t) <;> simp [ht]

/-- Stopping at the first false term comes to the same as looking at all of them. -/
theorem ofBool?_decideAll (undecided : Bool) (terms : List Expr) :
    Verdict.ofBool? (decideAll v cs s undecided terms) =
      Verdict.both (if undecided then .undecided else .holds)
        (Verdict.all (terms.map (verdict v cs s))) := by
  induction terms generalizing undecided with
  | nil => cases undecided <;> rfl
  | cons e rest ih =>
    rw [decideAll_cons, List.map_cons, Verdict.all_cons, verdict]
    cases e.decide v cs s with
    | none =>
      show Verdict.ofBool? (decideAll v cs s true rest) = _
      -- from here on the conjunction cannot hold, as if it had been undecided from the start
      rw [ih true, ← Verdict.both_assoc]
      cases undecided <;> rfl
    | some t =>
      cases t with
      | true =>
        show Verdict.ofBool? (decideAll v cs s undecided rest) = Verdict.both _ (.both .holds _)
        rw [ih undecided, Verdict.holds_both]
      -- a false term settles the conjunction, whatever was undecided before it
      | false => cases undecided <;> rfl

theorem ofBool?_decideAny (undecided : Bool) (terms : List Expr) :
    Verdict.ofBool? (decideAny v cs s undecided terms) =
      Verdict.either (if undecided then .undecided else .fails)
        (Verdict.any (terms.map (verdict v cs s))) := by
  induction terms generalizing undecided with
  | nil => cases undecided <;> rfl
  | cons e rest ih =>
    rw [decideAny_cons, List.map_cons, Verdict.any_cons, verdict]
    cases e.decide v cs s with
    | none =>
      show Verdict.ofBool? (decideAny v cs s true rest) = _
      rw [ih true, ← Verdict.either_assoc]
      cases undecided <;> rfl
    | some t =>
      cases t with
      | true => cases undecided <;> rfl
      | false =>
        show Verdict.ofBool? (decideAny v cs s undecided rest) = Verdict.either _ (.either .fails _)
        rw [ih undecided, Verdict.fails_either]

theorem eval_all_eq_map (terms : List Expr) :
    eval v cs s (.all terms) = (decideAll v cs s false terms).map .bool := by
  simp only [eval]

theorem eval_any_eq_map (terms : List Expr) :
    eval v cs s (.any terms) = (decideAny v cs s false terms).map .bool := by
  simp only [eval]

theorem eval_not_eq_map (e : Expr) :
    eval v cs s (.not e) = ((e.decide v cs s).map (!·)).map .bool := by
  simp only [eval, decide, Option.map_map, Function.comp_def]

/-- The verdict of a conjunction is that of its terms' verdicts. -/
theorem verdict_all (terms : List Expr) :
    (Expr.all terms).verdict v cs s = Verdict.all (terms.map (verdict v cs s)) := by
  rw [verdict_of_eval_map_bool (eval_all_eq_map terms), ofBool?_decideAll,
    if_neg Bool.false_ne_true, Verdict.holds_both]

theorem verdict_any (terms : List Expr) :
    (Expr.any terms).verdict v cs s = Verdict.any (terms.map (verdict v cs s)) := by
  rw [verdict_of_eval_map_bool (eval_any_eq_map terms), ofBool?_decideAny,
    if_neg Bool.false_ne_true, Verdict.fails_either]

theorem verdict_not (e : Expr) : (Expr.not e).verdict v cs s = (e.verdict v cs s).neg := by
  rw [verdict_of_eval_map_bool (eval_not_eq_map e), verdict]
  cases e.decide v cs s with
  | none => rfl
  | some b => exact (Verdict.neg_ofBool b).symm

end Expr

end Telltale
