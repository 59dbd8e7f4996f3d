import Telltale.Proofs.Table.Order
import Telltale.Trigger

/-!
# What a trigger remembers

One equation for each operation on the memory of a trigger, through `Memory.get?`:

* `Memory.get?_set` — remembering a verdict changes what is remembered of one rule for one actor.
* `Memory.perm_of_get?_eq` — memories that answer alike and repeat no key hold the same verdicts.
* `Trigger.dispatch_eq` — what a dispatch does, when the memory belongs to the rules.
* `Trigger.get?_dispatch`, `Trigger.get?_processEach_other` — what is remembered afterwards.
* `Trigger.processEach_of_mem` — each of several rules does what it would do alone.

A memory belongs to the rules (`Trigger.Current`) and repeats no key (`Memory.Distinct`) from the
start, and every operation keeps it so.
Nothing after this module unfolds `dispatch`.
-/

namespace Telltale

/-! ## Memory -/

namespace Memory

@[simp] theorem get?_empty (generation : Nat) (rule actor : String) :
    (empty generation).get? rule actor = none := rfl

/-- Taking the entries of one key out of a list leaves the others to be found. -/
theorem lookup_filter_ne {k k' : String × String} (h : k' ≠ k)
    (l : List ((String × String) × Verdict)) :
    (l.filter (·.1 ≠ k)).lookup k' = l.lookup k' := by
  induction l with
  | nil => rfl
  | cons p rest ih =>
    obtain ⟨key, v⟩ := p
    by_cases hk : key = k
    · have hne : (k' == key) = false := by simpa [hk] using h
      have hdrop : ((key, v) :: rest).filter (·.1 ≠ k) = rest.filter (·.1 ≠ k) := by simp [hk]
      rw [hdrop, ih, List.lookup_cons, hne]
    · have hkeep : ((key, v) :: rest).filter (·.1 ≠ k) = (key, v) :: rest.filter (·.1 ≠ k) := by
        simp [hk]
      rw [hkeep, List.lookup_cons, List.lookup_cons, ih]

/-- What is remembered once a verdict was taken down. -/
theorem get?_set (m : Memory) (rule actor : String) (v : Verdict) (rule' actor' : String) :
    (m.set rule actor v).get? rule' actor' =
      if rule' = rule ∧ actor' = actor then some v else m.get? rule' actor' := by
  unfold get? set
  rw [List.lookup_cons]
  by_cases h : rule' = rule ∧ actor' = actor
  · obtain ⟨rfl, rfl⟩ := h
    simp
  · have hne : (rule', actor') ≠ (rule, actor) := by
      intro heq
      exact h ⟨congrArg Prod.fst heq, congrArg Prod.snd heq⟩
    have hbeq : ((rule', actor') == (rule, actor)) = false := by simpa using hne
    rw [hbeq, if_neg h]
    exact lookup_filter_ne hne m.verdicts

@[simp] theorem generation_set (m : Memory) (rule actor : String) (v : Verdict) :
    (m.set rule actor v).generation = m.generation := rfl

/-- No verdict is remembered twice for one rule and actor. -/
def Distinct (m : Memory) : Prop := (m.verdicts.map (·.1)).Nodup

theorem Distinct.set {m : Memory} (h : m.Distinct) (rule actor : String) (v : Verdict) :
    (m.set rule actor v).Distinct := by
  have hnew : (rule, actor) ∉ (m.verdicts.filter (·.1 ≠ (rule, actor))).map (·.1) := by
    intro hmem
    obtain ⟨p, hp, hkey⟩ := List.mem_map.mp hmem
    simpa [hkey] using (List.mem_filter.mp hp).2
  exact List.nodup_cons.mpr ⟨hnew, h.sublist (List.filter_sublist.map _)⟩

/-- Memories that answer alike hold the same verdicts, perhaps in another order. -/
theorem perm_of_get?_eq {m m' : Memory} (hm : m.Distinct) (hm' : m'.Distinct)
    (h : ∀ rule actor, m.get? rule actor = m'.get? rule actor) : m.verdicts.Perm m'.verdicts :=
  perm_of_lookup_eq hm hm' fun k => h k.1 k.2

end Memory

namespace Trigger

/-! ## Triggers whose memory belongs to their rules -/

/-- The memory was built up under the rules that the trigger has. -/
def Current (t : Trigger) : Prop := t.memory.generation = t.ruleSet.generation

theorem current_start (rules : RuleSet) : (start rules).Current := rfl

theorem current_reload (t : Trigger) (rules : RuleSet) : (t.reload rules).Current := rfl

/-- Of a memory that belongs to the rules nothing is void. -/
theorem Current.currentMemory_eq {t : Trigger} (h : t.Current) : t.currentMemory = t.memory :=
  if_pos h

/-! ## One dispatch -/

/-- A dispatch in full: a definite verdict other than the remembered one is remembered and brings
its batch; any other verdict does nothing. -/
theorem dispatch_eq {t : Trigger} (h : t.Current) (r : Rule) (actor : String) (v : Verdict) :
    t.dispatch r actor v =
      if v.isDefinite ∧ t.memory.get? r.id actor ≠ some v then
        (batch? r actor v, ⟨t.ruleSet, t.memory.set r.id actor v⟩)
      else (none, t) := by
  unfold dispatch
  rw [h.currentMemory_eq]
  by_cases hv : v.isDefinite = true
  · by_cases hm : t.memory.get? r.id actor = some v
    · simp [hv, hm]
    · simp [hv, hm]
  · simp [hv]

@[simp] theorem ruleSet_dispatch (t : Trigger) (r : Rule) (actor : String) (v : Verdict) :
    (t.dispatch r actor v).2.ruleSet = t.ruleSet := by
  unfold dispatch
  split
  · rfl
  · simp only
    split <;> rfl

theorem Current.dispatch {t : Trigger} (h : t.Current) (r : Rule) (actor : String) (v : Verdict) :
    (t.dispatch r actor v).2.Current := by
  rw [dispatch_eq h]
  split <;> exact h

theorem Current.distinct_dispatch {t : Trigger} (h : t.Current) (hm : t.memory.Distinct) (r : Rule)
    (actor : String) (v : Verdict) : (t.dispatch r actor v).2.memory.Distinct := by
  rw [dispatch_eq h]
  split
  · exact hm.set r.id actor v
  · exact hm

/-- What is remembered after a dispatch: the verdict itself, if it is definite, and everything else
as before. -/
theorem get?_dispatch {t : Trigger} (h : t.Current) (r : Rule) (actor : String) (v : Verdict)
    (rule' actor' : String) :
    (t.dispatch r actor v).2.memory.get? rule' actor' =
      if rule' = r.id ∧ actor' = actor ∧ v.isDefinite then some v
      else t.memory.get? rule' actor' := by
  rw [dispatch_eq h]
  by_cases hv : v.isDefinite = true
  · by_cases hm : t.memory.get? r.id actor = some v
    · by_cases hk : rule' = r.id ∧ actor' = actor
      -- a verdict that is remembered already stays as it is
      · obtain ⟨rfl, rfl⟩ := hk
        simp [hv, hm]
      · simp only [hv, hm, ne_eq, not_true_eq_false, and_false, and_true, if_false, if_neg hk]
    · simp only [hv, hm, ne_eq, not_false_eq_true, and_self, and_true, if_true]
      exact Memory.get?_set _ _ _ _ _ _
  · simp [hv]

/-! ## A row of dispatches -/

@[simp] theorem processEach_nil (actor : String) (e : Evidence) (t : Trigger) :
    processEach actor e [] t = ([], t) := rfl

theorem processEach_cons (actor : String) (e : Evidence) (r : Rule) (rest : List Rule)
    (t : Trigger) :
    processEach actor e (r :: rest) t =
      ((t.dispatch r actor (r.judge e)).1.toList ++
          (processEach actor e rest (t.dispatch r actor (r.judge e)).2).1,
        (processEach actor e rest (t.dispatch r actor (r.judge e)).2).2) := rfl

@[simp] theorem ruleSet_processEach (actor : String) (e : Evidence) (rules : List Rule)
    (t : Trigger) : (processEach actor e rules t).2.ruleSet = t.ruleSet := by
  induction rules generalizing t with
  | nil => rfl
  | cons r rest ih => rw [processEach_cons, ih, ruleSet_dispatch]

/-- Evidence matters by the verdicts of the rules alone. -/
theorem processEach_congr {e e' : Evidence} {rules : List Rule}
    (h : ∀ r ∈ rules, r.judge e = r.judge e') (actor : String) (t : Trigger) :
    processEach actor e rules t = processEach actor e' rules t := by
  induction rules generalizing t with
  | nil => rfl
  | cons r rest ih =>
    obtain ⟨hr, hrest⟩ := List.forall_mem_cons.mp h
    rw [processEach_cons, processEach_cons, hr, ih hrest]

theorem Current.processEach {t : Trigger} (h : t.Current) (actor : String) (e : Evidence)
    (rules : List Rule) : (processEach actor e rules t).2.Current := by
  induction rules generalizing t with
  | nil => exact h
  | cons r rest ih => exact ih (h.dispatch r actor (r.judge e))

theorem Current.distinct_processEach {t : Trigger} (h : t.Current) (hm : t.memory.Distinct)
    (actor : String) (e : Evidence) (rules : List Rule) :
    (Trigger.processEach actor e rules t).2.memory.Distinct := by
  induction rules generalizing t with
  | nil => exact hm
  | cons r rest ih =>
    exact ih (h.dispatch r actor (r.judge e)) (h.distinct_dispatch hm r actor (r.judge e))

theorem Current.process {t : Trigger} (h : t.Current) (actor : String) (e : Evidence) :
    (t.process actor e).2.Current :=
  h.processEach actor e t.ruleSet.rules

@[simp] theorem ruleSet_process (t : Trigger) (actor : String) (e : Evidence) :
    (t.process actor e).2.ruleSet = t.ruleSet :=
  ruleSet_processEach actor e t.ruleSet.rules t

/-- Judging rules for one actor leaves alone what is remembered for another. -/
theorem get?_processEach_other {t : Trigger} (h : t.Current) {actor other : String}
    (hne : other ≠ actor) (e : Evidence) (rules : List Rule) (rule : String) :
    (processEach actor e rules t).2.memory.get? rule other = t.memory.get? rule other := by
  induction rules generalizing t with
  | nil => rfl
  | cons r rest ih =>
    have hstep := get?_dispatch h r actor (r.judge e) rule other
    rw [if_neg fun hk => hne hk.2.1] at hstep
    exact (ih (h.dispatch r actor (r.judge e))).trans hstep

/-! ## One rule of a row -/

/-- The batch of a dispatch is about its rule and has actions of that rule. -/
theorem of_mem_dispatch {t : Trigger} (h : t.Current) {r : Rule} {actor : String} {v : Verdict}
    {b : Batch} (hb : (t.dispatch r actor v).1 = some b) :
    b.rule = r.id ∧ ∀ a ∈ b.actions, a ∈ r.onRise ++ r.onFall := by
  rw [dispatch_eq h] at hb
  split at hb
  · unfold batch? at hb
    split at hb
    · next edge actions hactions =>
      split at hb
      · cases hb
      · cases hb
        refine ⟨rfl, ?_⟩
        cases v with
        | holds => cases hactions; exact fun a ha => List.mem_append_left _ ha
        | fails => cases hactions; exact fun a ha => List.mem_append_right _ ha
        | undecided => cases hactions
    · cases hb
  · cases hb

/-- Where the same is remembered of a rule, it does the same on the same verdict. -/
theorem dispatch_congr {t t' : Trigger} (h : t.Current) (h' : t'.Current) {r : Rule}
    (hmemory : ∀ actor, t.memory.get? r.id actor = t'.memory.get? r.id actor) (actor : String)
    (v : Verdict) :
    (t.dispatch r actor v).1 = (t'.dispatch r actor v).1 ∧
    ∀ other, (t.dispatch r actor v).2.memory.get? r.id other =
      (t'.dispatch r actor v).2.memory.get? r.id other := by
  constructor
  · rw [dispatch_eq h, dispatch_eq h', hmemory]
    split <;> rfl
  · intro other
    rw [get?_dispatch h, get?_dispatch h', hmemory]

/-- Rules in a row do nothing about a rule that is not among them. -/
theorem processEach_of_notMem {t : Trigger} (h : t.Current) (actor : String) (e : Evidence)
    {rules : List Rule} {id : String} (hid : id ∉ rules.map (·.id)) :
    (processEach actor e rules t).1.filter (·.rule == id) = [] ∧
    ∀ other, (processEach actor e rules t).2.memory.get? id other = t.memory.get? id other := by
  induction rules generalizing t with
  | nil => exact ⟨rfl, fun _ => rfl⟩
  | cons r rest ih =>
    obtain ⟨hr, hrest⟩ := not_or.mp (mt List.mem_cons.mpr hid)
    obtain ⟨hbatches, hmemory⟩ := ih (h.dispatch r actor (r.judge e)) hrest
    have hbatch : (t.dispatch r actor (r.judge e)).1.toList.filter (·.rule == id) = [] := by
      refine List.filter_eq_nil_iff.mpr fun b hb => ?_
      rw [(of_mem_dispatch h (Option.mem_toList.mp hb)).1]
      simpa using Ne.symm hr
    rw [processEach_cons, List.filter_append, hbatch, hbatches]
    refine ⟨rfl, fun other => ?_⟩
    rw [hmemory, get?_dispatch h, if_neg fun hk => hr hk.1]

/-- Among rules with different identifiers, each does what it would do alone. -/
theorem processEach_of_mem {t : Trigger} (h : t.Current) (actor : String) (e : Evidence)
    {rules : List Rule} (hids : (rules.map (·.id)).Nodup) {r : Rule} (hr : r ∈ rules) :
    (processEach actor e rules t).1.filter (·.rule == r.id) =
      (t.dispatch r actor (r.judge e)).1.toList ∧
    ∀ other, (processEach actor e rules t).2.memory.get? r.id other =
      (t.dispatch r actor (r.judge e)).2.memory.get? r.id other := by
  induction rules generalizing t with
  | nil => cases hr
  | cons r' rest ih =>
    obtain ⟨hr', hrest⟩ := List.nodup_cons.mp hids
    have hnext : (t.dispatch r' actor (r'.judge e)).2.Current := h.dispatch r' actor (r'.judge e)
    rw [processEach_cons, List.filter_append]
    rcases List.mem_cons.mp hr with rfl | hr
    -- the rules behind it do nothing about it
    · obtain ⟨hbatches, hmemory⟩ := processEach_of_notMem hnext actor e hr'
      have hbatch : (t.dispatch r actor (r.judge e)).1.toList.filter (·.rule == r.id) =
          (t.dispatch r actor (r.judge e)).1.toList :=
        List.filter_eq_self.mpr fun b hb => by
          simpa using (of_mem_dispatch h (Option.mem_toList.mp hb)).1
      rw [hbatch, hbatches, List.append_nil]
      exact ⟨rfl, hmemory⟩
    -- and neither does the one before it
    · have hne : r.id ≠ r'.id := fun heq => hr' (List.mem_map.mpr ⟨r, hr, heq⟩)
      obtain ⟨hbatches, hmemory⟩ := ih hnext hrest hr
      have hbefore (other : String) : (t.dispatch r' actor (r'.judge e)).2.memory.get? r.id other =
          t.memory.get? r.id other := by
        rw [get?_dispatch h, if_neg fun hk => hne hk.1]
      obtain ⟨hbatch, hmemory'⟩ := dispatch_congr hnext h hbefore actor (r.judge e)
      have hnone : (t.dispatch r' actor (r'.judge e)).1.toList.filter (·.rule == r.id) = [] := by
        refine List.filter_eq_nil_iff.mpr fun b hb => ?_
        rw [(of_mem_dispatch h (Option.mem_toList.mp hb)).1]
        simpa using hne.symm
      rw [hnone, List.nil_append, hbatches, hbatch]
      exact ⟨rfl, fun other => (hmemory other).trans (hmemory' other)⟩

end Trigger

end Telltale
