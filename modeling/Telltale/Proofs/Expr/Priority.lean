import Telltale.Proofs.Expr.Algebra

/-!
# First match as priority

A first match goes through its cases in order and stops at the first condition that is not false.
The connectives say the same: a case is taken if its condition is true and no earlier one is, which
is a conjunction with negations in front.

* `Choice` — where a first match stops; `Choice.ofVerdicts` finds it from the verdicts of the
  conditions.
* `Expr.evalCases_eq_value?` — the value of a first match is that of its choice.
* `Expr.TakesCase`, `Expr.TakesDefault` — what is taken, whatever the values at hand are.
* `Expr.eval_first_iff`, `Expr.eval_noneOf_iff` — the conjunctions that stand for the choices.
* `Expr.firstMatch_priority` — a first match takes what these conjunctions say, and nothing behind
  the case where it stops matters.
-/

namespace Telltale

/-! ## Choices -/

/-- Where a first match stops: at the case at a position, behind all cases, or at a condition that is
undecided. -/
inductive Choice where
  | case (i : Nat)
  | default
  | blocked
  deriving DecidableEq

namespace Choice

/-- The choice as it is with one more case in front. -/
def behindOne : Choice → Choice
  | .case i => .case (i + 1)
  | .default => .default
  | .blocked => .blocked

/-- The choice among conditions of some verdicts. The first one that does not fail settles it. -/
def ofVerdicts : List Verdict → Choice
  | [] => .default
  | .fails :: vs => (ofVerdicts vs).behindOne
  | .holds :: _ => .case 0
  | .undecided :: _ => .blocked

/-- What a choice yields. -/
def value? (values : List Json) (default : Option Json) : Choice → Option Json
  | .case i => values[i]?
  | .default => default
  | .blocked => none

@[simp] theorem ofVerdicts_nil : ofVerdicts [] = .default := rfl

@[simp] theorem ofVerdicts_fails (vs : List Verdict) :
    ofVerdicts (.fails :: vs) = (ofVerdicts vs).behindOne := rfl

@[simp] theorem ofVerdicts_holds (vs : List Verdict) : ofVerdicts (.holds :: vs) = .case 0 := rfl

@[simp] theorem ofVerdicts_undecided (vs : List Verdict) :
    ofVerdicts (.undecided :: vs) = .blocked := rfl

theorem behindOne_eq_case_iff {c : Choice} {i : Nat} :
    c.behindOne = .case i ↔ ∃ j, c = .case j ∧ i = j + 1 := by
  cases c <;> simp [behindOne, eq_comm]

theorem behindOne_eq_default_iff {c : Choice} : c.behindOne = .default ↔ c = .default := by
  cases c <;> simp [behindOne]

/-- A case is chosen if its condition holds and those before it fail. -/
theorem ofVerdicts_eq_case_iff {vs : List Verdict} {i : Nat} :
    ofVerdicts vs = .case i ↔ (∀ v ∈ vs.take i, v = .fails) ∧ vs[i]? = some .holds := by
  induction vs generalizing i with
  | nil => simp
  | cons v vs ih =>
    cases v with
    | holds => cases i <;> simp
    | undecided => cases i <;> simp
    | fails =>
      rw [ofVerdicts_fails, behindOne_eq_case_iff]
      cases i with
      | zero => simp
      | succ i => simp [ih]

/-- The default is chosen if every condition fails. -/
theorem ofVerdicts_eq_default_iff {vs : List Verdict} :
    ofVerdicts vs = .default ↔ ∀ v ∈ vs, v = .fails := by
  induction vs with
  | nil => simp
  | cons v vs ih => cases v <;> simp [behindOne_eq_default_iff, ih]

theorem value?_behindOne (c : Choice) (value : Json) (values : List Json) (default : Option Json) :
    c.behindOne.value? (value :: values) default = c.value? values default := by
  cases c <;> simp [behindOne, value?]

end Choice

/-! ## Conjunctions that hold -/

namespace Verdict

theorem both_eq_holds_iff {v w : Verdict} : both v w = .holds ↔ v = .holds ∧ w = .holds := by
  cases v <;> cases w <;> simp [both]

theorem all_eq_holds_iff {vs : List Verdict} : all vs = .holds ↔ ∀ v ∈ vs, v = .holds := by
  induction vs with
  | nil => simp
  | cons v vs ih => rw [all_cons, both_eq_holds_iff, ih, List.forall_mem_cons]

theorem neg_eq_holds_iff {v : Verdict} : v.neg = .holds ↔ v = .fails := by
  cases v <;> simp [neg]

theorem value?_eq_true_iff {v : Verdict} : v.value? = some (.bool true) ↔ v = .holds := by
  cases v <;> simp [value?]

end Verdict

namespace Expr

variable {v : Vocabulary} {cs : Combiners} {s : Scene}

/-! ## The value of a first match -/

/-- The choice of a first match with some conditions. -/
def choice (v : Vocabulary) (cs : Combiners) (s : Scene) (conditions : List Expr) : Choice :=
  Choice.ofVerdicts (conditions.map (verdict v cs s))

/-- The value of a first match is that of its choice. -/
theorem evalCases_eq_value? (default : Option Json) (cases : List (Expr × Json)) :
    evalCases v cs s default cases =
      (choice v cs s (cases.map (·.1))).value? (cases.map (·.2)) default := by
  induction cases with
  | nil => rfl
  | cons c rest ih =>
    obtain ⟨condition, value⟩ := c
    rw [evalCases_cons, choice, List.map_cons, List.map_cons, List.map_cons, verdict]
    cases condition.decide v cs s with
    | none => rfl
    | some truth =>
      cases truth with
      | true => rfl
      | false => exact ih.trans (Choice.value?_behindOne _ _ _ _).symm

theorem eval_firstMatch (cases : List (Expr × Json)) (default : Option Json) :
    eval v cs s (.firstMatch cases default) =
      (choice v cs s (cases.map (·.1))).value? (cases.map (·.2)) default := by
  rw [eval, evalCases_eq_value?]

/-- Nothing behind a case matters whose condition is not false. -/
theorem evalCases_append_of_not_false {c : Expr × Json} (hc : c.1.decide v cs s ≠ some false)
    (before after after' : List (Expr × Json)) (default default' : Option Json) :
    evalCases v cs s default (before ++ c :: after) =
      evalCases v cs s default' (before ++ c :: after') := by
  induction before with
  | nil =>
    rw [List.nil_append, List.nil_append, evalCases_cons, evalCases_cons]
    cases hdecide : c.1.decide v cs s with
    | none => rfl
    | some truth =>
      cases truth with
      | true => rfl
      | false => exact absurd hdecide hc
  | cons b before ih =>
    rw [List.cons_append, List.cons_append, evalCases_cons, evalCases_cons, ih]

/-! ## What is taken -/

/-- A first match takes a case: whatever the values of the cases and the default are, it yields the
value of this one. -/
def TakesCase (v : Vocabulary) (cs : Combiners) (s : Scene) (cases : List (Expr × Json)) (i : Nat) :
    Prop :=
  i < cases.length ∧ ∀ (cases' : List (Expr × Json)) (default : Option Json),
    cases'.map (·.1) = cases.map (·.1) →
      eval v cs s (.firstMatch cases' default) = (cases'[i]?).map (·.2)

/-- A first match takes its default, whatever the values of the cases and the default are. -/
def TakesDefault (v : Vocabulary) (cs : Combiners) (s : Scene) (cases : List (Expr × Json)) : Prop :=
  ∀ (cases' : List (Expr × Json)) (default : Option Json), cases'.map (·.1) = cases.map (·.1) →
    eval v cs s (.firstMatch cases' default) = default

/-- The cases with other values: true at one position and false elsewhere. -/
def marked (cases : List (Expr × Json)) (i : Nat) : List (Expr × Json) :=
  (cases.map (·.1)).zip ((List.range cases.length).map fun j => .bool (j = i))

theorem conditions_marked (cases : List (Expr × Json)) (i : Nat) :
    (marked cases i).map (·.1) = cases.map (·.1) :=
  List.map_fst_zip (by simp)

theorem values_marked (cases : List (Expr × Json)) (i : Nat) :
    (marked cases i).map (·.2) = (List.range cases.length).map fun j => .bool (j = i) :=
  List.map_snd_zip (by simp)

theorem length_of_choice {cases : List (Expr × Json)} {i : Nat}
    (h : choice v cs s (cases.map (·.1)) = .case i) : i < cases.length := by
  obtain ⟨hi, -⟩ := List.getElem?_eq_some_iff.mp (Choice.ofVerdicts_eq_case_iff.mp h).2
  simpa using hi

theorem takesCase_iff {cases : List (Expr × Json)} {i : Nat} :
    TakesCase v cs s cases i ↔ choice v cs s (cases.map (·.1)) = .case i := by
  constructor
  · rintro ⟨hi, htakes⟩
    -- marked at the position, the values tell which case was taken
    have hmarked := htakes (marked cases i) none (conditions_marked cases i)
    rw [eval_firstMatch, ← List.getElem?_map, conditions_marked, values_marked] at hmarked
    cases hchoice : choice v cs s (cases.map (·.1)) with
    | case j =>
      have hj := length_of_choice hchoice
      simpa [hchoice, Choice.value?, hi, hj] using hmarked
    | default => simp [hchoice, Choice.value?, hi] at hmarked
    | blocked => simp [hchoice, Choice.value?, hi] at hmarked
  · intro hchoice
    refine ⟨length_of_choice hchoice, fun cases' default hsame => ?_⟩
    rw [eval_firstMatch, hsame, hchoice, Choice.value?, List.getElem?_map]

theorem takesDefault_iff {cases : List (Expr × Json)} :
    TakesDefault v cs s cases ↔ choice v cs s (cases.map (·.1)) = .default := by
  constructor
  · intro htakes
    have habsent := htakes cases none rfl
    have hpresent := htakes cases (some .null) rfl
    rw [eval_firstMatch] at habsent hpresent
    cases hchoice : choice v cs s (cases.map (·.1)) with
    | case i =>
      have hi := length_of_choice hchoice
      simp [hchoice, Choice.value?, hi] at habsent
    | default => rfl
    | blocked =>
      rw [hchoice] at hpresent
      cases hpresent
  · intro hchoice cases' default hsame
    rw [eval_firstMatch, hsame, hchoice, Choice.value?]

/-! ## Priority by conjunctions -/

/-- The conjunction that says that a condition is the first to be true. -/
def first (before : List Expr) (condition : Expr) : Expr := .all (before.map .not ++ [condition])

/-- The conjunction that says that no condition is true. -/
def noneOf (conditions : List Expr) : Expr := .all (conditions.map .not)

theorem eval_all_iff {terms : List Expr} :
    eval v cs s (.all terms) = some (.bool true) ↔ ∀ t ∈ terms, t.verdict v cs s = .holds := by
  rw [eval_all, Verdict.value?_eq_true_iff, Verdict.all_eq_holds_iff, List.forall_mem_map]

theorem eval_noneOf_iff {conditions : List Expr} :
    eval v cs s (noneOf conditions) = some (.bool true) ↔
      ∀ t ∈ conditions, t.verdict v cs s = .fails := by
  rw [noneOf, eval_all_iff, List.forall_mem_map]
  simp only [verdict_not, Verdict.neg_eq_holds_iff]

theorem eval_first_iff {before : List Expr} {condition : Expr} :
    eval v cs s (first before condition) = some (.bool true) ↔
      (∀ t ∈ before, t.verdict v cs s = .fails) ∧ condition.verdict v cs s = .holds := by
  rw [first, eval_all_iff, List.forall_mem_append, List.forall_mem_map, List.forall_mem_singleton]
  simp only [verdict_not, Verdict.neg_eq_holds_iff]

/-- A first match is the priority reading of the other connectives. -/
structure IsPriority (v : Vocabulary) (cs : Combiners) (s : Scene) (cases : List (Expr × Json))
    (default : Option Json) : Prop where
  case_iff : ∀ i (hi : i < cases.length), TakesCase v cs s cases i ↔
    eval v cs s (first ((cases.take i).map (·.1)) cases[i].1) = some (.bool true)
  case_value : ∀ i (hi : i < cases.length), TakesCase v cs s cases i →
    eval v cs s (.firstMatch cases default) = some cases[i].2
  default_iff : TakesDefault v cs s cases ↔
    eval v cs s (noneOf (cases.map (·.1))) = some (.bool true)
  default_value : TakesDefault v cs s cases → eval v cs s (.firstMatch cases default) = default
  otherwise : (∀ i, ¬ TakesCase v cs s cases i) → ¬ TakesDefault v cs s cases →
    eval v cs s (.firstMatch cases default) = none
  unique : ∀ i, TakesCase v cs s cases i →
    (∀ j, TakesCase v cs s cases j → j = i) ∧ ¬ TakesDefault v cs s cases
  undecided_blocks : ∀ i (hi : i < cases.length), eval v cs s cases[i].1 = none →
    (∀ j, i < j → ¬ TakesCase v cs s cases j) ∧ ¬ TakesDefault v cs s cases
  rest_unseen : ∀ i (hi : i < cases.length), decide v cs s cases[i].1 ≠ some false →
    ∀ (after : List (Expr × Json)) (default' : Option Json),
      eval v cs s (.firstMatch (cases.take (i + 1) ++ after) default') =
        eval v cs s (.firstMatch cases default)

/-- **A first match is the priority reading of the other connectives.** It takes a case exactly if
the conjunction of the condition with the negations of those before it is true, and the default
exactly if the conjunction of all negations is; otherwise it yields nothing. So no more than one case
is taken, an undecided condition blocks whatever is behind it, and cases behind one whose condition
is not false can be put, dropped or changed at will. -/
theorem firstMatch_priority (v : Vocabulary) (cs : Combiners) (s : Scene)
    (cases : List (Expr × Json)) (default : Option Json) : IsPriority v cs s cases default where
  case_iff i hi := by
    rw [takesCase_iff, eval_first_iff, choice, Choice.ofVerdicts_eq_case_iff, List.map_map,
      List.getElem?_map, List.getElem?_eq_getElem hi, ← List.map_take, List.forall_mem_map,
      List.forall_mem_map]
    simp
  case_value i hi htakes := by
    rw [htakes.2 cases default rfl, List.getElem?_eq_getElem hi, Option.map_some]
  default_iff := by
    rw [takesDefault_iff, eval_noneOf_iff, choice, Choice.ofVerdicts_eq_default_iff,
      List.forall_mem_map]
  default_value htakes := htakes cases default rfl
  otherwise hcases hdefault := by
    rw [eval_firstMatch]
    cases hchoice : choice v cs s (cases.map (·.1)) with
    | case i => exact absurd (takesCase_iff.mpr hchoice) (hcases i)
    | default => exact absurd (takesDefault_iff.mpr hchoice) hdefault
    | blocked => rfl
  unique i htakes := by
    rw [takesCase_iff] at htakes
    refine ⟨fun j hj => ?_, fun hdefault => ?_⟩
    · rw [takesCase_iff, htakes] at hj
      cases hj
      rfl
    · rw [takesDefault_iff, htakes] at hdefault
      cases hdefault
  undecided_blocks i hi hnone := by
    have hundecided : cases[i].1.verdict v cs s ≠ .fails := by
      rw [verdict_of_eval_none hnone]
      decide
    refine ⟨fun j hij htakes => hundecided ?_, fun htakes => hundecided ?_⟩
    · rw [takesCase_iff] at htakes
      have hfails := (Choice.ofVerdicts_eq_case_iff.mp htakes).1
      rw [List.map_map, ← List.map_take, List.forall_mem_map] at hfails
      exact hfails _ (List.mem_take_iff_getElem.mpr ⟨i, by omega, rfl⟩)
    · rw [takesDefault_iff, choice, Choice.ofVerdicts_eq_default_iff, List.map_map,
        List.forall_mem_map] at htakes
      exact htakes _ (List.getElem_mem hi)
  rest_unseen i hi hdecide after default' := by
    rw [eval, eval, List.take_succ_eq_append_getElem hi, List.append_assoc, List.singleton_append]
    conv_rhs => rw [← List.take_append_drop i cases, ← List.getElem_cons_drop hi]
    exact evalCases_append_of_not_false hdecide _ _ _ _ _

/-- What the lamps of a signal post say, where the first one that is lit counts. -/
def lampCases : List (Expr × Json) := [
  (.path "state.red" none, .string "stop"), (.path "state.amber" none, .string "wait"),
  (.path "state.green" none, .string "go")]

/-- A scene with some of the lamps. -/
def lampScene (lamps : List (String × Json)) : Scene where
  frame := ⟨.journal, none, ⟨0, 0⟩, .null⟩
  externals := ⟨some (.object lamps), none⟩
  recency := .empty
  now := ⟨0, 0⟩

theorem firstMatch_priority_lamps :
    let v : Vocabulary := ⟨[], []⟩
    let lit := lampScene [("red", .bool false), ("amber", .bool true), ("green", .bool true)]
    let dark := lampScene [("red", .bool false), ("amber", .bool false), ("green", .bool false)]
    let broken := lampScene [("red", .bool false), ("green", .bool true)]
    let value s := eval v .absent s (.firstMatch lampCases (some (.string "off")))
    TakesCase v .absent lit lampCases 1 ∧ value lit = some (.string "wait") ∧
    TakesDefault v .absent dark lampCases ∧ value dark = some (.string "off") ∧
    -- the last lamp is lit, but nobody knows of the one before it
    eval v .absent broken (.path "state.green" none) = some (.bool true) ∧
    ¬ TakesCase v .absent broken lampCases 2 ∧ ¬ TakesDefault v .absent broken lampCases := by
  intro v lit dark broken value
  have hpriority (s : Scene) := firstMatch_priority v .absent s lampCases (some (.string "off"))
  have hcase : TakesCase v .absent lit lampCases 1 :=
    ((hpriority lit).case_iff 1 (by decide)).mpr (eval_first_iff.mpr (by decide +kernel))
  have hdefault : TakesDefault v .absent dark lampCases :=
    (hpriority dark).default_iff.mpr (eval_noneOf_iff.mpr (by decide +kernel))
  obtain ⟨hnext, hnone⟩ := (hpriority broken).undecided_blocks 1 (by decide) (by decide +kernel)
  exact ⟨hcase, (hpriority lit).case_value 1 (by decide) hcase, hdefault,
    (hpriority dark).default_value hdefault, by simp only [eval]; rfl, hnext 2 (by decide), hnone⟩

end Expr

end Telltale
