import Telltale.Proofs.Verdict.Order
import Telltale.Rule.Judge

/-!
# More evidence settles more

A definite verdict stays when missing values are supplied.

* `Condition.judge_stays` — the verdict of a condition stays if those of its leaves do, by recursion
  on the tree.
* `Rule.judge_eq_of_evidence_le` — the definite verdict of a rule is the same on all evidence that
  has what the rule looks at and was there before.
* `Rule.judge_congr` — a rule sees nothing else of the evidence.
-/

namespace Telltale

/-! ## Conditions -/

theorem Leaf.judge_stays {e e' : Evidence} {l : Leaf}
    (h : ∀ v, e.value? l.operand = some v → e'.value? l.operand = some v) :
    (l.judge e).Stays (l.judge e') := by
  unfold Leaf.judge
  cases hv : e.value? l.operand with
  | none => exact .of_undecided
  | some v =>
    rw [h v hv]
    exact .refl _

namespace Condition

mutual

/-- The verdict of a condition stays if those of its leaves do. -/
theorem judge_stays {e e' : Evidence} :
    ∀ c : Condition, (∀ l ∈ c.leaves, (l.judge e).Stays (l.judge e')) →
      (judge e c).Stays (judge e' c)
  | .all members, h => .all (judgeEach_stays members h)
  | .any members, h => .any (judgeEach_stays members h)
  | .leaf l, h => h l (List.mem_singleton_self l)

theorem judgeEach_stays {e e' : Evidence} :
    ∀ cs : List Condition, (∀ l ∈ leavesOf cs, (l.judge e).Stays (l.judge e')) →
      List.Forall₂ Verdict.Stays (judgeEach e cs) (judgeEach e' cs)
  | [], _ => .nil
  | c :: rest, h =>
    .cons (judge_stays c fun l hl => h l (List.mem_append_left _ hl))
      (judgeEach_stays rest fun l hl => h l (List.mem_append_right _ hl))

end

end Condition

/-! ## Rules -/

namespace Rule

variable {r : Rule} {e e' : Evidence}

theorem judgeCondition_stays (h : ∀ l ∈ r.leaves, (l.judge e).Stays (l.judge e')) :
    (r.judgeCondition e).Stays (r.judgeCondition e') := by
  have hall := Condition.judgeEach_stays (r.all.getD []) fun l hl =>
    h l (List.mem_append_left _ hl)
  have hany := Condition.judgeEach_stays (r.any.getD []) fun l hl =>
    h l (List.mem_append_right _ hl)
  unfold judgeCondition
  cases ha : r.all with
  | none =>
    cases hb : r.any with
    | none => exact .refl _
    | some any =>
      rw [hb] at hany
      exact .any hany
  | some all =>
    rw [ha] at hall
    cases hb : r.any with
    | none => exact .all hall
    | some any =>
      rw [hb] at hany
      exact (Verdict.Stays.all hall).both (.any hany)

/-- The verdict of a rule stays if its filter answers as before and the operands of its leaves keep
their values. -/
theorem judge_stays (hsource : e.frame.source = e'.frame.source)
    (hevent : e.frame.eventName? = e'.frame.eventName?)
    (hleaves : ∀ l ∈ r.leaves, ∀ v, e.value? l.operand = some v → e'.value? l.operand = some v) :
    (r.judge e).Stays (r.judge e') := by
  unfold judge
  rw [← hsource, ← hevent]
  split
  · exact judgeCondition_stays fun l hl => Leaf.judge_stays (hleaves l hl)
  · exact .refl _

/-- A rule looks at nothing but the source and the event of the frame and the operands of its
leaves. -/
theorem judge_congr (hsource : e.frame.source = e'.frame.source)
    (hevent : e.frame.eventName? = e'.frame.eventName?)
    (hleaves : ∀ l ∈ r.leaves, e.value? l.operand = e'.value? l.operand) :
    r.judge e = r.judge e' :=
  (judge_stays hsource hevent fun l hl _ hv => hleaves l hl ▸ hv).antisymm
    (judge_stays hsource.symm hevent.symm fun l hl _ hv => (hleaves l hl).symm ▸ hv)

/-- **Supplying what is missing never changes a definite verdict.** On two frames of one source and
event, where the second evidence has whatever the first has of the operands of a rule, the rule
holds or fails on the second if it does on the first. -/
theorem judge_eq_of_evidence_le (hsource : e.frame.source = e'.frame.source)
    (hevent : e.frame.eventName? = e'.frame.eventName?)
    (hleaves : ∀ l ∈ r.leaves, ∀ v, e.value? l.operand = some v → e'.value? l.operand = some v)
    (hdefinite : (r.judge e).isDefinite = true) : r.judge e' = r.judge e :=
  (judge_stays hsource hevent hleaves).eq hdefinite

end Rule

/-- A rule on three signals. -/
def Rule.ready : Rule where
  id := "ready"
  title := "Ready"
  filter := ⟨some .dashboard, []⟩
  all := some [.leaf ⟨.signal "docked", .compare .eq (.bool true)⟩]
  any := some [.leaf ⟨.signal "fuel", .compare .gt (.number .zero)⟩,
    .leaf ⟨.signal "shields", .compare .ne (.string "down")⟩]
  onRise := [.setFlag "READY"]
  onFall := []

/-- What a rule is judged by on a frame that says nothing itself. -/
def Evidence.ofSnapshot (s : Snapshot) : Evidence :=
  ⟨⟨.dashboard, none, ⟨0, 0⟩, .null⟩, .absent, s⟩

theorem Rule.judge_eq_of_evidence_le_ready :
    let known : Snapshot := [⟨"docked", .bool true, false⟩, ⟨"fuel", .number .zero, true⟩,
      ⟨"shields", .string "up", false⟩]
    let more : Snapshot := [⟨"docked", .bool true, false⟩, ⟨"fuel", .number .zero, false⟩,
      ⟨"shields", .string "up", false⟩]
    (ready.judge (.ofSnapshot known)).isDefinite = true ∧
      ready.judge (.ofSnapshot more) = ready.judge (.ofSnapshot known) := by
  intro known more
  have hdefinite : (ready.judge (.ofSnapshot known)).isDefinite = true := by decide +kernel
  refine ⟨hdefinite, judge_eq_of_evidence_le rfl rfl ?_ hdefinite⟩
  intro l hl v hv
  simp only [ready, Rule.leaves, Condition.leavesOf, Condition.leaves, Option.getD_some,
    List.append_nil, List.singleton_append, List.mem_cons, List.not_mem_nil, or_false] at hl
  rcases hl with rfl | rfl | rfl
  · exact hv
  · simp [Evidence.ofSnapshot, Evidence.value?, Snapshot.derived?, Snapshot.entry?, known] at hv
  · exact hv

end Telltale
