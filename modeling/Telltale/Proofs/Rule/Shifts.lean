import Telltale.Proofs.Expr.Shifts
import Telltale.Proofs.Rule.Loaded
import Telltale.Proofs.Snapshot.ClosedWorld
import Telltale.Rule.Judge

/-!
# Judging without overflow

Rules read bits too: those that were looked up by name in a group when the rules were loaded.

* `Rule.judgeChecked` — the verdict of a rule, with shifts that may fail.
* `Leaf.Loaded.le_of_mem` — the bits that a loaded leaf names are bits of a word.
* `Condition.Loaded.judgeChecked_eq_ok`, `Rule.judgeChecked_eq_ok` — no shift fails in a loaded rule.
* `checks_close_evaluation` — so no derivation and no verdict of a rule shifts a word too far.
-/

namespace Telltale

/-! ## Words -/

/-- Whether the bits of a word are as wanted, with shifts that may fail. The lists are looked at in
turn, and no further than needed. -/
def hasBitsChecked (word : BitVec 64) (allOf anyOf noneOf : List Nat) : Except Overflow Bool := do
  let isSet (i : Nat) : Except Overflow Bool := (shiftBit word i).map (· == 1)
  let hasAll ← allOf.allM isSet
  if !hasAll then .ok false
  else if anyOf.isEmpty then (noneOf.anyM isSet).map (!·)
  else
    let hasSome ← anyOf.anyM isSet
    if hasSome then (noneOf.anyM isSet).map (!·) else .ok false

theorem allM_eq_ok {f : α → Except ε Bool} {g : α → Bool} {l : List α}
    (h : ∀ a ∈ l, f a = .ok (g a)) : l.allM f = .ok (l.all g) := by
  induction l with
  | nil => rfl
  | cons a rest ih =>
    obtain ⟨ha, hrest⟩ := List.forall_mem_cons.mp h
    rw [List.allM, ha, List.all_cons]
    cases g a with
    | false => rfl
    | true => exact ih hrest

theorem anyM_eq_ok {f : α → Except ε Bool} {g : α → Bool} {l : List α}
    (h : ∀ a ∈ l, f a = .ok (g a)) : l.anyM f = .ok (l.any g) := by
  induction l with
  | nil => rfl
  | cons a rest ih =>
    obtain ⟨ha, hrest⟩ := List.forall_mem_cons.mp h
    rw [List.anyM, ha, List.any_cons]
    cases g a with
    | false => exact ih hrest
    | true => rfl

theorem hasBitsChecked_eq_ok {allOf anyOf noneOf : List Nat}
    (h : ∀ i ∈ allOf ++ anyOf ++ noneOf, i ≤ 63) (word : BitVec 64) :
    hasBitsChecked word allOf anyOf noneOf = .ok (hasBits word allOf anyOf noneOf) := by
  simp only [List.forall_mem_append] at h
  obtain ⟨⟨hall, hany⟩, hnone⟩ := h
  have hset (i : Nat) (hi : i ≤ 63) :
      (shiftBit word i).map (· == 1) = .ok (bit word i == 1) := by
    rw [shiftBit_eq_ok hi]
    rfl
  unfold hasBitsChecked hasBits
  dsimp only
  rw [allM_eq_ok fun i hi => hset i (hall i hi), anyM_eq_ok fun i hi => hset i (hany i hi),
    anyM_eq_ok fun i hi => hset i (hnone i hi)]
  -- what is left is the order in which the three answers are asked for
  generalize allOf.all _ = hasAll
  generalize anyOf.any _ = hasSome
  cases hasAll <;> cases anyOf.isEmpty <;> cases hasSome <;> rfl

/-! ## Leaves -/

/-- The verdict of a test, with shifts that may fail. -/
def Test.judgeChecked (t : Test) (v : Json) : Except Overflow Verdict :=
  match t with
  | .compare comparison value => .ok (Test.judge (.compare comparison value) v)
  | .oneOf values => .ok (Test.judge (.oneOf values) v)
  | .bits allOf anyOf noneOf =>
    match v.flagWord? with
    | some word => (hasBitsChecked word allOf anyOf noneOf).map Verdict.ofBool
    | none => .ok .undecided

/-- The verdict of a leaf, with shifts that may fail. -/
def Leaf.judgeChecked (l : Leaf) (e : Evidence) : Except Overflow Verdict :=
  match e.value? l.operand with
  | some v => l.test.judgeChecked v
  | none => .ok .undecided

/-- The bits that a loaded leaf names are bits of a word. -/
theorem Leaf.Loaded.le_of_mem {c : Catalog} (hc : c.Accepted) {l : Leaf} (h : l.Loaded c)
    {allOf anyOf noneOf : List Nat} (htest : l.test = .bits allOf anyOf noneOf) :
    ∀ i ∈ allOf ++ anyOf ++ noneOf, i ≤ 63 := by
  cases h with
  | signal _ hcomparing => exact absurd htest (hcomparing allOf anyOf noneOf)
  | field _ hcomparing => exact absurd htest (hcomparing allOf anyOf noneOf)
  | flags hgroup hbits =>
    cases htest
    intro i hi
    obtain ⟨name, hname⟩ := hbits i hi
    exact hc.bit_le_maxBit hgroup hname

theorem Test.judgeChecked_eq_ok {t : Test}
    (h : ∀ allOf anyOf noneOf, t = .bits allOf anyOf noneOf → ∀ i ∈ allOf ++ anyOf ++ noneOf, i ≤ 63)
    (v : Json) : t.judgeChecked v = .ok (t.judge v) := by
  cases t with
  | compare comparison value => rfl
  | oneOf values => rfl
  | bits allOf anyOf noneOf =>
    unfold judgeChecked judge
    cases v.flagWord? with
    | none => rfl
    | some word =>
      show (hasBitsChecked word allOf anyOf noneOf).map Verdict.ofBool = _
      rw [hasBitsChecked_eq_ok (h allOf anyOf noneOf rfl)]
      rfl

theorem Leaf.Loaded.judgeChecked_eq_ok {c : Catalog} (hc : c.Accepted) {l : Leaf} (h : l.Loaded c)
    (e : Evidence) : l.judgeChecked e = .ok (l.judge e) := by
  unfold Leaf.judgeChecked Leaf.judge
  cases e.value? l.operand with
  | none => rfl
  | some v => exact Test.judgeChecked_eq_ok (fun _ _ _ htest => h.le_of_mem hc htest) v

/-! ## Conditions -/

namespace Condition

mutual

/-- The verdict of a condition, with shifts that may fail. -/
def judgeChecked (e : Evidence) : Condition → Except Overflow Verdict
  | .all members => (judgeEachChecked e members).map Verdict.all
  | .any members => (judgeEachChecked e members).map Verdict.any
  | .leaf l => l.judgeChecked e

def judgeEachChecked (e : Evidence) : List Condition → Except Overflow (List Verdict)
  | [] => .ok []
  | c :: rest => do
    let v ← judgeChecked e c
    let vs ← judgeEachChecked e rest
    .ok (v :: vs)

end

theorem judgeEachChecked_eq_ok {e : Evidence} {members : List Condition}
    (h : ∀ m ∈ members, m.judgeChecked e = .ok (m.judge e)) :
    judgeEachChecked e members = .ok (judgeEach e members) := by
  induction members with
  | nil => rw [judgeEachChecked, judgeEach]
  | cons m rest ih =>
    obtain ⟨hm, hrest⟩ := List.forall_mem_cons.mp h
    rw [judgeEachChecked, judgeEach, hm, ih hrest]
    rfl

theorem Loaded.judgeChecked_eq_ok {c : Catalog} (hc : c.Accepted) (e : Evidence) {cond : Condition}
    (h : cond.Loaded c) : cond.judgeChecked e = .ok (cond.judge e) := by
  induction h with
  | all _ _ ih =>
    rw [judgeChecked, judge, judgeEachChecked_eq_ok ih]
    rfl
  | any _ _ ih =>
    rw [judgeChecked, judge, judgeEachChecked_eq_ok ih]
    rfl
  | leaf h =>
    rw [judgeChecked, judge]
    exact h.judgeChecked_eq_ok hc e

end Condition

/-! ## Rules -/

namespace Rule

/-- The verdict of the condition of a rule, with shifts that may fail. -/
def judgeConditionChecked (r : Rule) (e : Evidence) : Except Overflow Verdict :=
  match r.all, r.any with
  | some all, some any => do
    let vs ← Condition.judgeEachChecked e all
    let ws ← Condition.judgeEachChecked e any
    .ok ((Verdict.all vs).both (Verdict.any ws))
  | some all, none => (Condition.judgeEachChecked e all).map Verdict.all
  | none, some any => (Condition.judgeEachChecked e any).map Verdict.any
  | none, none => .ok .undecided

/-- The verdict of a rule, with shifts that may fail. -/
def judgeChecked (r : Rule) (e : Evidence) : Except Overflow Verdict :=
  if r.filter.accepts e.frame.source e.frame.eventName? then r.judgeConditionChecked e
  else .ok .fails

variable {c : Catalog} {text : String} {rules : List Rule} {r : Rule}

/-- The groups of a loaded rule are judged without a failing shift. -/
theorem judgeGroup_eq_ok (hc : c.Accepted) (hrules : listOfText c text = .ok rules) (hr : r ∈ rules)
    {members : List Condition} (hmembers : r.all = some members ∨ r.any = some members)
    (e : Evidence) :
    Condition.judgeEachChecked e members = .ok (Condition.judgeEach e members) := by
  apply Condition.judgeEachChecked_eq_ok
  intro m hm
  have hhas : r.Has m := by
    rcases hmembers with hall | hany
    · exact .inAll (.all hall) hm
    · exact .inAny (.any hany) hm
  exact (hhas.loaded hrules hr).judgeChecked_eq_ok hc e

theorem judgeChecked_eq_ok (hc : c.Accepted) (hrules : listOfText c text = .ok rules)
    (hr : r ∈ rules) (e : Evidence) : r.judgeChecked e = .ok (r.judge e) := by
  have hgroup {members : List Condition} (hmembers : r.all = some members ∨ r.any = some members) :=
    judgeGroup_eq_ok hc hrules hr hmembers e
  have hcondition : r.judgeConditionChecked e = .ok (r.judgeCondition e) := by
    unfold judgeConditionChecked judgeCondition
    cases hall : r.all with
    | none =>
      cases hany : r.any with
      | none => rfl
      | some any =>
        dsimp only
        rw [hgroup (.inr hany)]
        rfl
    | some all =>
      cases hany : r.any with
      | none =>
        dsimp only
        rw [hgroup (.inl hall)]
        rfl
      | some any =>
        dsimp only
        rw [hgroup (.inl hall), hgroup (.inr hany)]
        rfl
  unfold judgeChecked judge
  rw [hcondition]
  split <;> rfl

end Rule

/-! ## What the checks rule out -/

/-- **The checks leave nothing for evaluation to trip over.** Let a text bring rules for an accepted
catalog, and let all combiners of the catalog be there. Then whatever an expression refers to
resolves, at every depth of every signal, and the bits of every leaf of every rule are bits of a
word. So no derivation on any scene and no verdict of a rule on any evidence shifts a word by as many
places as it has bits, or more. -/
theorem checks_close_evaluation {c : Catalog} {cs : Combiners} {d : Deriver} (hc : c.Accepted)
    (hd : Deriver.build c cs = .ok d) {text : String} {rules : List Rule}
    (hrules : Rule.listOfText c text = .ok rules) :
    (∀ s ∈ c.signals, ∀ e : Expr, e.Inside s.expr → e.Resolves c.vocabulary cs) ∧
    (∀ r ∈ rules, ∀ l, r.Has (.leaf l) → ∀ allOf anyOf noneOf,
      l.test = .bits allOf anyOf noneOf → ∀ i ∈ allOf ++ anyOf ++ noneOf, i ≤ 63) ∧
    (∀ scene, d.deriveChecked scene = .ok (d.derive scene)) ∧
    ∀ r ∈ rules, ∀ e, r.judgeChecked e = .ok (r.judge e) := by
  have hmissing : c.missingCombiner? cs = none := Deriver.missingCombiner?_of_build hd
  obtain rfl : d = ⟨c, cs⟩ := eq_of_build hd
  refine ⟨?_, ?_, ?_, ?_⟩
  · intro s hs e he
    exact hc.resolves hmissing hs he.mem_subterms
  · intro r hr l hl allOf anyOf noneOf htest
    cases hl.loaded hrules hr with
    | leaf hloaded => exact hloaded.le_of_mem hc htest
  · exact Deriver.deriveChecked_eq_ok hc hmissing
  · intro r hr e
    exact Rule.judgeChecked_eq_ok hc hrules hr e

/-- A catalog of one signal, which counts what is there of four expressions. -/
def quay : Catalog where
  version := 1
  vocabulary := ⟨[("ship", ⟨"dashboard.Flags", [("hot", 63)]⟩)], [("ports", ["Docked"])]⟩
  signals := [{
    id := "known"
    type := .number
    values := []
    default := none
    description := none
    expr := .combine "count" [
      .bitfield none (some "ship") (.name "hot") none,
      .map (.event anyEvent none (some "ports") none) [("Docked", .number .one)] none,
      .firstMatch [(.all [.not (.recent "Docked" (.finite (.ofInt 3)))], .number .one)] none,
      .compare (.bitfield (some "dashboard.Flags") none (.index 63) none) .gte (.number .one)] }]

/-- One rule with a nested group over the highest bit of a word. -/
def quayRules : String :=
  "rules:\n- title: A\n  when:\n    all:\n    - any:\n      - flags: ship\n" ++
    "        all_of: [hot]\n  then:\n  - type: log\n    message: m\n"

/-- A polled frame with that bit and no other one. -/
def Frame.hot : Frame := ⟨.dashboard, none, ⟨0, 0⟩, .object [("Flags", .ofNat 9223372036854775808)]⟩

theorem checks_close_evaluation_quay :
    quay.Accepted ∧ Deriver.build quay .standard = .ok ⟨quay, .standard⟩ ∧
    ((Deriver.derive ⟨quay, .standard⟩ ⟨.hot, .absent, .empty, ⟨0, 0⟩⟩).snapshot.value?
      "known").any (·.looseEq (.ofNat 3)) = true ∧
    ∃ rules, Rule.listOfText quay quayRules = .ok rules ∧
      (rules.map fun r => r.judge ⟨.hot, .absent, []⟩) = [.holds] ∧
      (∀ s ∈ quay.signals, ∀ e : Expr, e.Inside s.expr → e.Resolves quay.vocabulary .standard) ∧
      (∀ r ∈ rules, ∀ l, r.Has (.leaf l) → ∀ allOf anyOf noneOf,
        l.test = .bits allOf anyOf noneOf → ∀ i ∈ allOf ++ anyOf ++ noneOf, i ≤ 63) ∧
      (∀ scene, Deriver.deriveChecked ⟨quay, .standard⟩ scene =
        .ok (Deriver.derive ⟨quay, .standard⟩ scene)) ∧
      ∀ r ∈ rules, ∀ e, r.judgeChecked e = .ok (r.judge e) := by
  have hfault : quay.fault?.isNone = true := by decide +kernel
  have hc : quay.Accepted := Option.isNone_iff_eq_none.mp hfault
  have hload : (Rule.listOfText quay quayRules).toOption.any (fun rules =>
      decide ((rules.map fun r => r.judge ⟨.hot, .absent, []⟩) = [.holds])) = true := by
    decide +kernel
  obtain ⟨rules, hrules, hholds⟩ := exists_of_any_toOption hload
  exact ⟨hc, rfl, by decide +kernel, rules, hrules, of_decide_eq_true hholds,
    checks_close_evaluation hc rfl hrules⟩

end Telltale
