/-!
# Three-valued verdicts

A rule or a part of one holds, fails, or is undecided because the frame at hand lacks what it asks
for. The connectives are Kleene's: one failing member settles a conjunction and one holding member a
disjunction, and otherwise an undecided member leaves the whole undecided.

* `Verdict.both`, `Verdict.either` join two verdicts.
* `Verdict.all`, `Verdict.any` join verdicts in a row, and look no further once they are settled.
  `Verdict.all_cons` and `Verdict.any_cons` say that this makes no difference.
-/

namespace Telltale

/-- The outcome of judging a rule or a part of one. -/
inductive Verdict where
  | holds
  | fails
  | undecided
  deriving DecidableEq

namespace Verdict

/-- Every verdict. -/
def every : List Verdict := [.holds, .fails, .undecided]

/-- The name that answers use. -/
def name : Verdict → String
  | .holds => "match"
  | .fails => "no_match"
  | .undecided => "indeterminate"

/-- The verdict of a name. -/
def ofName? (s : String) : Option Verdict := every.find? (·.name == s)

/-- The verdict of a decided test. -/
def ofBool (b : Bool) : Verdict := if b then .holds else .fails

/-- The verdict of a test that may be undecided. -/
def ofBool? : Option Bool → Verdict
  | some b => ofBool b
  | none => .undecided

/-- Whether the verdict is holding or failing. -/
def isDefinite : Verdict → Bool
  | .undecided => false
  | _ => true

/-- Conjunction. -/
def both : Verdict → Verdict → Verdict
  | .fails, _ | _, .fails => .fails
  | .undecided, _ | _, .undecided => .undecided
  | .holds, .holds => .holds

/-- Disjunction. -/
def either : Verdict → Verdict → Verdict
  | .holds, _ | _, .holds => .holds
  | .undecided, _ | _, .undecided => .undecided
  | .fails, .fails => .fails

/-- Conjunction of verdicts in a row, going on from one. It is settled at the first failing one. -/
def allFrom (sofar : Verdict) : List Verdict → Verdict
  | [] => sofar
  | v :: vs => if both sofar v = .fails then .fails else allFrom (both sofar v) vs

/-- Disjunction of verdicts in a row, going on from one. It is settled at the first holding one. -/
def anyFrom (sofar : Verdict) : List Verdict → Verdict
  | [] => sofar
  | v :: vs => if either sofar v = .holds then .holds else anyFrom (either sofar v) vs

/-- Conjunction of any number of verdicts. -/
def all (vs : List Verdict) : Verdict := allFrom .holds vs

/-- Disjunction of any number of verdicts. -/
def any (vs : List Verdict) : Verdict := anyFrom .fails vs

/-! ### Settling early -/

@[simp] theorem holds_both (v : Verdict) : both .holds v = v := by
  cases v <;> rfl

@[simp] theorem fails_both (v : Verdict) : both .fails v = .fails := by
  cases v <;> rfl

@[simp] theorem fails_either (v : Verdict) : either .fails v = v := by
  cases v <;> rfl

@[simp] theorem holds_either (v : Verdict) : either .holds v = .holds := by
  cases v <;> rfl

theorem both_assoc (u v w : Verdict) : both (both u v) w = both u (both v w) := by
  cases u <;> cases v <;> cases w <;> rfl

theorem either_assoc (u v w : Verdict) : either (either u v) w = either u (either v w) := by
  cases u <;> cases v <;> cases w <;> rfl

theorem allFrom_fails (vs : List Verdict) : allFrom .fails vs = .fails := by
  cases vs with
  | nil => rfl
  | cons v vs => rw [allFrom, fails_both, if_pos rfl]

theorem anyFrom_holds (vs : List Verdict) : anyFrom .holds vs = .holds := by
  cases vs with
  | nil => rfl
  | cons v vs => rw [anyFrom, holds_either, if_pos rfl]

/-- To go on after a conjunction is settled would not change it. -/
theorem allFrom_cons (u v : Verdict) (vs : List Verdict) :
    allFrom u (v :: vs) = allFrom (both u v) vs := by
  rw [allFrom]
  split
  · next hfails => rw [hfails, allFrom_fails]
  · rfl

theorem anyFrom_cons (u v : Verdict) (vs : List Verdict) :
    anyFrom u (v :: vs) = anyFrom (either u v) vs := by
  rw [anyFrom]
  split
  · next hholds => rw [hholds, anyFrom_holds]
  · rfl

theorem allFrom_eq_both (u : Verdict) (vs : List Verdict) : allFrom u vs = both u (all vs) := by
  induction vs generalizing u with
  | nil => cases u <;> rfl
  | cons v vs ih => rw [all, allFrom_cons, allFrom_cons, ih, ih, holds_both, both_assoc]

theorem anyFrom_eq_either (u : Verdict) (vs : List Verdict) :
    anyFrom u vs = either u (any vs) := by
  induction vs generalizing u with
  | nil => cases u <;> rfl
  | cons v vs ih => rw [any, anyFrom_cons, anyFrom_cons, ih, ih, fails_either, either_assoc]

@[simp] theorem all_nil : all [] = .holds := rfl

@[simp] theorem all_cons (v : Verdict) (vs : List Verdict) : all (v :: vs) = both v (all vs) := by
  rw [all, allFrom_cons, allFrom_eq_both, holds_both]

theorem all_singleton (v : Verdict) : all [v] = v := by
  cases v <;> rfl

@[simp] theorem any_nil : any [] = .fails := rfl

@[simp] theorem any_cons (v : Verdict) (vs : List Verdict) : any (v :: vs) = either v (any vs) := by
  rw [any, anyFrom_cons, anyFrom_eq_either, fails_either]

end Verdict

end Telltale
