import Mathlib.Data.List.Basic
import Telltale.Proofs.Rule.Loaded
import Telltale.Proofs.Table.Pairs
import Telltale.Proofs.Trigger.Memory

/-!
# Batches come from the history of verdicts

A trigger is used by three calls: one verdict is dispatched, all rules are processed on one frame,
or the rules are replaced. What it answers depends on nothing but the verdicts that came in since
the rules were last replaced:

* `History.of` collects these verdicts, oldest first, and `lastDefinite?` searches them backwards
  for the last definite one of a rule and an actor. Neither knows of the memory.
* `due` is the batch that a verdict owes after such a history, and `dueEach` the batches of a row.
* `Remembers` — the memory holds, for each rule and actor, the last definite verdict. It is the
  invariant of every run (`remembers_after`).
* `batches_eq_due` — every answer of every run is the batch that is due; with different identifiers,
  as a document guarantees, each rule of a process is on its own.
-/

namespace Telltale

/-! ## Histories -/

/-- A verdict that came in for a rule and an actor. -/
structure Incoming where
  rule : Rule
  actor : String
  verdict : Verdict

/-- The actions of the rule for the verdict. -/
def Incoming.actions (d : Incoming) : List Action :=
  match d.verdict with
  | .holds => d.rule.onRise
  | .fails => d.rule.onFall
  | .undecided => []

/-- The edge of a change to the verdict. -/
def Incoming.edge (d : Incoming) : Edge :=
  match d.verdict with
  | .holds => .rising
  | _ => .falling

/-- Whether the verdict is a definite one of the given rule for the given actor. -/
def Incoming.isDefiniteOf (rule actor : String) (d : Incoming) : Bool :=
  d.rule.id = rule ∧ d.actor = actor ∧ d.verdict ≠ .undecided

/-- The last definite verdict of a rule for an actor. -/
def lastDefinite? (past : List Incoming) (rule actor : String) : Option Verdict :=
  (past.reverse.find? (Incoming.isDefiniteOf rule actor)).map (·.verdict)

/-- The batch that a verdict owes after others: a definite one that is not the last definite one
before it brings the actions for it, if there are any. -/
def due (past : List Incoming) (d : Incoming) : Option Batch :=
  if d.verdict ≠ .undecided ∧ lastDefinite? past d.rule.id d.actor ≠ some d.verdict ∧
      d.actions ≠ [] then
    some ⟨d.rule.id, d.actor, d.edge, d.actions⟩
  else none

/-- The batches that verdicts in a row owe, each after all that came before it. -/
def dueEach (past : List Incoming) : List Incoming → List Batch
  | [] => []
  | d :: rest => (due past d).toList ++ dueEach (past ++ [d]) rest

/-- The verdicts of rules in a row on one frame. -/
def judged (actor : String) (e : Evidence) (rules : List Rule) : List Incoming :=
  rules.map fun r => ⟨r, actor, r.judge e⟩

/-! ## Calls and runs -/

/-- A call of a trigger. -/
inductive Call where
  | dispatch (rule : Rule) (actor : String) (verdict : Verdict)
  | process (actor : String) (evidence : Evidence)
  | reload (rules : RuleSet)

/-- The trigger after a call. -/
def Trigger.step (t : Trigger) : Call → Trigger
  | .dispatch r actor v => (t.dispatch r actor v).2
  | .process actor e => (t.process actor e).2
  | .reload rules => t.reload rules

/-- The trigger after calls in a row. -/
def Trigger.after (t : Trigger) (calls : List Call) : Trigger := calls.foldl Trigger.step t

/-- The rules that are loaded and the verdicts that came in since. -/
structure History where
  loaded : RuleSet
  since : List Incoming

namespace History

/-- Rules that were just loaded. -/
def start (rules : RuleSet) : History := ⟨rules, []⟩

/-- What a call adds. -/
def step (h : History) : Call → History
  | .dispatch r actor v => ⟨h.loaded, h.since ++ [⟨r, actor, v⟩]⟩
  | .process actor e => ⟨h.loaded, h.since ++ judged actor e h.loaded.rules⟩
  | .reload rules => start rules

/-- The history of calls in a row, from the first rules on. -/
def of (rules : RuleSet) (calls : List Call) : History := calls.foldl step (start rules)

end History

/-! ## The last definite verdict -/

theorem Verdict.isDefinite_iff {v : Verdict} : v.isDefinite = true ↔ v ≠ .undecided := by
  cases v <;> decide

@[simp] theorem lastDefinite?_nil (rule actor : String) : lastDefinite? [] rule actor = none := rfl

theorem lastDefinite?_append_singleton (past : List Incoming) (d : Incoming) (rule actor : String) :
    lastDefinite? (past ++ [d]) rule actor =
      if rule = d.rule.id ∧ actor = d.actor ∧ d.verdict ≠ .undecided then some d.verdict
      else lastDefinite? past rule actor := by
  unfold lastDefinite?
  rw [List.reverse_append, List.reverse_singleton, List.singleton_append, List.find?_cons]
  by_cases h : rule = d.rule.id ∧ actor = d.actor ∧ d.verdict ≠ .undecided
  · obtain ⟨rfl, rfl, hv⟩ := h
    have hd : Incoming.isDefiniteOf d.rule.id d.actor d = true := by
      simp [Incoming.isDefiniteOf, hv]
    simp [hd, hv]
  · have hd : Incoming.isDefiniteOf rule actor d = false := by
      rw [Incoming.isDefiniteOf, decide_eq_false_iff_not]
      rintro ⟨hr, ha, hv⟩
      exact h ⟨hr.symm, ha.symm, hv⟩
    rw [if_neg h, hd]

/-- Verdicts of other rules do not count. -/
theorem lastDefinite?_filter (past : List Incoming) (rule actor : String) :
    lastDefinite? (past.filter (·.rule.id == rule)) rule actor = lastDefinite? past rule actor := by
  unfold lastDefinite?
  rw [← List.filter_reverse, List.find?_filter]
  congr 2
  funext d
  by_cases h : d.rule.id = rule <;> simp [Incoming.isDefiniteOf, h]

/-! ## The memory holds the last definite verdicts -/

/-- A trigger has the rules of a history and remembers its last definite verdicts. -/
structure Remembers (t : Trigger) (h : History) : Prop where
  loaded : t.ruleSet = h.loaded
  current : t.Current
  last : ∀ rule actor, t.memory.get? rule actor = lastDefinite? h.since rule actor

theorem remembers_start (rules : RuleSet) : Remembers (.start rules) (.start rules) :=
  ⟨rfl, Trigger.current_start rules, fun _ _ => rfl⟩

/-- The batch of a rule for a verdict, as the one that is due. -/
theorem batch?_eq (r : Rule) (actor : String) {v : Verdict} (hv : v ≠ .undecided) :
    Trigger.batch? r actor v =
      if (Incoming.mk r actor v).actions ≠ [] then
        some ⟨r.id, actor, (Incoming.mk r actor v).edge, (Incoming.mk r actor v).actions⟩
      else none := by
  cases v with
  | holds => cases hr : r.onRise <;> simp [Trigger.batch?, Trigger.edgeActions?, Incoming.actions,
      Incoming.edge, hr]
  | fails => cases hr : r.onFall <;> simp [Trigger.batch?, Trigger.edgeActions?, Incoming.actions,
      Incoming.edge, hr]
  | undecided => exact absurd rfl hv

/-- A dispatch answers with the batch that is due. -/
theorem Remembers.dispatch_fst {t : Trigger} {h : History} (ht : Remembers t h) (r : Rule)
    (actor : String) (v : Verdict) : (t.dispatch r actor v).1 = due h.since ⟨r, actor, v⟩ := by
  rw [Trigger.dispatch_eq ht.current, ht.last]
  unfold due
  simp only [Verdict.isDefinite_iff]
  by_cases hv : v = .undecided
  · simp [hv]
  · by_cases hl : lastDefinite? h.since r.id actor = some v
    · simp [hl]
    · simp only [hv, hl, ne_eq, not_false_eq_true, and_self, if_true, true_and]
      exact batch?_eq r actor hv

/-- A dispatch adds its verdict to what is remembered. -/
theorem Remembers.dispatch_snd {t : Trigger} {h : History} (ht : Remembers t h) (r : Rule)
    (actor : String) (v : Verdict) :
    Remembers (t.dispatch r actor v).2 ⟨h.loaded, h.since ++ [⟨r, actor, v⟩]⟩ where
  loaded := (Trigger.ruleSet_dispatch t r actor v).trans ht.loaded
  current := ht.current.dispatch r actor v
  last rule actor' := by
    rw [Trigger.get?_dispatch ht.current, lastDefinite?_append_singleton, ht.last]
    simp only [Verdict.isDefinite_iff]

/-- Rules in a row answer with the batches that are due, each after the ones before it. -/
theorem Remembers.processEach {t : Trigger} {h : History} (ht : Remembers t h) (actor : String)
    (e : Evidence) (rules : List Rule) :
    (Trigger.processEach actor e rules t).1 = dueEach h.since (judged actor e rules) ∧
    Remembers (Trigger.processEach actor e rules t).2
      ⟨h.loaded, h.since ++ judged actor e rules⟩ := by
  induction rules generalizing t h with
  | nil =>
    rw [judged, List.map_nil, List.append_nil]
    exact ⟨rfl, ht⟩
  | cons r rest ih =>
    obtain ⟨hfst, hsnd⟩ := ih (ht.dispatch_snd r actor (r.judge e))
    rw [Trigger.processEach_cons]
    constructor
    · rw [hfst, ht.dispatch_fst]
      rfl
    · simpa [judged, List.append_assoc] using hsnd

theorem Remembers.process {t : Trigger} {h : History} (ht : Remembers t h) (actor : String)
    (e : Evidence) : (t.process actor e).1 = dueEach h.since (judged actor e h.loaded.rules) := by
  rw [← ht.loaded]
  exact (ht.processEach actor e t.ruleSet.rules).1

theorem Remembers.step {t : Trigger} {h : History} (ht : Remembers t h) (call : Call) :
    Remembers (t.step call) (h.step call) := by
  cases call with
  | dispatch r actor v => exact ht.dispatch_snd r actor v
  | process actor e =>
    have hrules : h.loaded.rules = t.ruleSet.rules := by rw [ht.loaded]
    show Remembers (t.process actor e).2 ⟨h.loaded, h.since ++ judged actor e h.loaded.rules⟩
    rw [hrules]
    exact (ht.processEach actor e t.ruleSet.rules).2
  | reload rules => exact remembers_start rules

/-- **The invariant of every run.** -/
theorem remembers_after (rules : RuleSet) (calls : List Call) :
    Remembers ((Trigger.start rules).after calls) (History.of rules calls) := by
  have hrun : ∀ t h, Remembers t h → Remembers (t.after calls) (calls.foldl History.step h) := by
    induction calls with
    | nil => exact fun _ _ ht => ht
    | cons call rest ih => exact fun _ _ ht => ih _ _ (ht.step call)
  exact hrun _ _ (remembers_start rules)

/-! ## Each rule on its own -/

/-- A batch is about the rule whose verdict came in. -/
theorem rule_of_due {past : List Incoming} {d : Incoming} {b : Batch} (h : due past d = some b) :
    b.rule = d.rule.id := by
  unfold due at h
  split at h
  · cases h; rfl
  · cases h

/-- The verdict of another rule does not change what is due. -/
theorem due_append_other {past : List Incoming} {d d' : Incoming} (h : d'.rule.id ≠ d.rule.id) :
    due (past ++ [d]) d' = due past d' := by
  have hlast : lastDefinite? (past ++ [d]) d'.rule.id d'.actor =
      lastDefinite? past d'.rule.id d'.actor := by
    rw [lastDefinite?_append_singleton]
    exact if_neg fun hk => h hk.1
  unfold due
  rw [hlast]

/-- Rules with different identifiers owe what each of them would owe alone. -/
theorem dueEach_eq_filterMap {past ds : List Incoming} (h : (ds.map (·.rule.id)).Nodup) :
    dueEach past ds = ds.filterMap (due past) := by
  induction ds generalizing past with
  | nil => rfl
  | cons d rest ih =>
    obtain ⟨hd, hrest⟩ := List.nodup_cons.mp h
    have halone : rest.filterMap (due (past ++ [d])) = rest.filterMap (due past) := by
      apply List.filterMap_congr
      intro d' hd'
      apply due_append_other
      intro heq
      exact hd (List.mem_map.mpr ⟨d', hd', heq⟩)
    rw [dueEach, ih hrest, halone, List.filterMap_cons]
    cases due past d <;> rfl

/-! ## Without the other rules -/

/-- The rule of an identifier alone. -/
def RuleSet.only (s : RuleSet) (id : String) : RuleSet :=
  ⟨s.generation, s.rules.filter (·.id == id)⟩

/-- What is left of a call when all other rules are deleted. -/
def Call.only? (id : String) : Call → Option Call
  | .dispatch r actor v => if r.id = id then some (.dispatch r actor v) else none
  | .process actor e => some (.process actor e)
  | .reload rules => some (.reload (rules.only id))

/-- What is left of a history. -/
def History.only (h : History) (id : String) : History :=
  ⟨h.loaded.only id, h.since.filter (·.rule.id == id)⟩

theorem judged_only (actor : String) (e : Evidence) (s : RuleSet) (id : String) :
    judged actor e (s.only id).rules =
      (judged actor e s.rules).filter (·.rule.id == id) := by
  simp [judged, RuleSet.only, List.filter_map, Function.comp_def]

/-- Deleting the other rules from a call deletes their verdicts from the history. -/
theorem History.step_only (h : History) (call : Call) (id : String) :
    (h.step call).only id = ((Call.only? id call).map (h.only id).step).getD (h.only id) := by
  cases call with
  | dispatch r actor v =>
    by_cases hr : r.id = id <;> simp [Call.only?, History.step, History.only, hr]
  | process actor e =>
    simp only [Call.only?, Option.map_some, Option.getD_some, History.step, History.only,
      judged_only, List.filter_append]
  | reload rules => rfl

theorem History.of_only (rules : RuleSet) (calls : List Call) (id : String) :
    History.of (rules.only id) (calls.filterMap (Call.only? id)) =
      (History.of rules calls).only id := by
  have hrun : ∀ h : History, (calls.filterMap (Call.only? id)).foldl History.step (h.only id) =
      (calls.foldl History.step h).only id := by
    induction calls with
    | nil => exact fun _ => rfl
    | cons call rest ih =>
      intro h
      have hstep := h.step_only call id
      rw [List.filterMap_cons, List.foldl_cons, ← ih]
      cases hc : Call.only? id call with
      | none => rw [hc] at hstep; rw [hstep]; rfl
      | some c => rw [hc] at hstep; rw [hstep]; rfl
  exact hrun (History.start rules)

/-- Deleting the other rules leaves the batches of a rule as they are. -/
theorem dueEach_filter (past ds : List Incoming) (id : String) :
    dueEach (past.filter (·.rule.id == id)) (ds.filter (·.rule.id == id)) =
      (dueEach past ds).filter (·.rule == id) := by
  induction ds generalizing past with
  | nil => rfl
  | cons d rest ih =>
    have ih := ih (past ++ [d])
    rw [List.filter_append] at ih
    rw [dueEach, List.filter_append, ← ih]
    by_cases hd : d.rule.id = id
    · have hdue : due (past.filter (·.rule.id == id)) d = due past d := by
        subst hd
        unfold due
        rw [lastDefinite?_filter]
      have hkeep : (due past d).toList.filter (·.rule == id) = (due past d).toList := by
        cases hb : due past d with
        | none => rfl
        | some b => simp [rule_of_due hb, hd]
      simp [dueEach, hd, hdue, hkeep]
    · have hdrop : (due past d).toList.filter (·.rule == id) = [] := by
        cases hb : due past d with
        | none => rfl
        | some b => simp [rule_of_due hb, hd]
      simp [hd, hdrop]

/-! ## The batches of every run -/

/-- **Every answer of every run is what the history owes.** A dispatch brings the batch that is due
after the verdicts since the rules were last replaced, and processing a frame brings what its rules
owe one after the other. If a document brought the rules, each rule answers as if it were alone, at
most once and in order; and deleting all other rules from the run leaves the batches of a rule. -/
theorem batches_eq_due (rules : RuleSet) (past : List Call) :
    let t := (Trigger.start rules).after past
    let h := History.of rules past
    (∀ r actor v, (t.dispatch r actor v).1 = due h.since ⟨r, actor, v⟩) ∧
    (∀ actor e, (t.process actor e).1 = dueEach h.since (judged actor e h.loaded.rules)) ∧
    (∀ c text, Rule.listOfText c text = .ok h.loaded.rules → ∀ actor e,
      (t.process actor e).1 =
        h.loaded.rules.filterMap (fun r => (t.dispatch r actor (r.judge e)).1) ∧
      ((t.process actor e).1.map (·.rule)).Sublist (h.loaded.rules.map (·.id)) ∧
      ((t.process actor e).1.map (·.rule)).Nodup) ∧
    (∀ id actor e,
      (((Trigger.start (rules.only id)).after (past.filterMap (Call.only? id))).process actor e).1 =
        (t.process actor e).1.filter (·.rule == id)) := by
  intro t h
  have ht : Remembers t h := remembers_after rules past
  refine ⟨ht.dispatch_fst, ht.process, ?_, ?_⟩
  · intro c text hload actor e
    have hids : ((judged actor e h.loaded.rules).map (·.rule.id)) = h.loaded.rules.map (·.id) := by
      simp [judged, Function.comp_def]
    have hnodup := Rule.nodup_ids_of_listOfText hload
    have hbatches : (t.process actor e).1 =
        (judged actor e h.loaded.rules).filterMap (due h.since) := by
      rw [ht.process, dueEach_eq_filterMap (hids ▸ hnodup)]
    have hrule : ∀ d b, due h.since d = some b → b.rule = d.rule.id := fun _ _ hb => rule_of_due hb
    have hsub := sublist_map_filterMap hrule (judged actor e h.loaded.rules)
    rw [hids, ← hbatches] at hsub
    refine ⟨?_, hsub, hnodup.sublist hsub⟩
    rw [hbatches, judged, List.filterMap_map]
    exact List.filterMap_congr fun r _ => (ht.dispatch_fst r actor (r.judge e)).symm
  · intro id actor e
    have honly := remembers_after (rules.only id) (past.filterMap (Call.only? id))
    rw [honly.process, History.of_only, ht.process]
    show dueEach (h.since.filter _) (judged actor e (h.loaded.only id).rules) = _
    rw [judged_only, dueEach_filter]

/-- A rule that has something to do either way. -/
def Rule.gate : Rule where
  id := "gate"
  title := "Gate"
  filter := ⟨none, []⟩
  all := some [.leaf ⟨.field "state.open", .compare .eq (.bool true)⟩]
  any := none
  onRise := [.setFlag "OPEN"]
  onFall := [.clearFlag "OPEN", .log "shut"]

/-- A frame on which the gate is open or shut. -/
def Evidence.ofGate (isOpen : Bool) : Evidence where
  frame := ⟨.journal, none, ⟨0, 0⟩, .null⟩
  externals := ⟨some (.object [("open", .bool isOpen)]), none⟩
  snapshot := []

theorem batches_eq_due_gate :
    let t := Trigger.start ⟨1, [.gate]⟩
    let opened := Call.process "a" (.ofGate true)
    let shut := Call.process "a" (.ofGate false)
    (t.process "a" (.ofGate true)).1 = [⟨"gate", "a", .rising, [.setFlag "OPEN"]⟩] ∧
    ((t.after [opened]).process "a" (.ofGate true)).1 = [] ∧
    ((t.after [opened]).process "a" (.ofGate false)).1 =
      [⟨"gate", "a", .falling, [.clearFlag "OPEN", .log "shut"]⟩] ∧
    ((t.after [opened, shut]).dispatch .gate "a" .holds).1 =
      some ⟨"gate", "a", .rising, [.setFlag "OPEN"]⟩ := by
  intro t opened shut
  obtain ⟨-, hfirst, -⟩ := batches_eq_due ⟨1, [.gate]⟩ []
  obtain ⟨-, hsecond, -⟩ := batches_eq_due ⟨1, [.gate]⟩ [opened]
  obtain ⟨hthird, -⟩ := batches_eq_due ⟨1, [.gate]⟩ [opened, shut]
  refine ⟨(hfirst "a" _).trans ?_, (hsecond "a" _).trans ?_, (hsecond "a" _).trans ?_,
    (hthird .gate "a" .holds).trans ?_⟩
  · rfl
  · rfl
  · rfl
  · rfl

end Telltale
