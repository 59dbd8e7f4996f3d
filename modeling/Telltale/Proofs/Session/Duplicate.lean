import Telltale.Proofs.Session.Flags
import Telltale.Proofs.Session.Windows

/-!
# A frame that comes in twice

Where one frame comes in twice in a row, the second time nothing is left to do: the event of the
frame stands in the index already, and every rule comes to the verdict that it just came to.

* `Session.recencyAt_recencyAt` — pruning and recording again leaves an index as it is, for every
  window and whatever order the times are in.
* `Trigger.Settled` — the verdicts of rules on a frame are the ones that are remembered. Rules with
  different identifiers are settled once they were judged, and settled rules do nothing.
* `Session.ingest_ingest` — the second tick is the first one without its batches, and the second
  session is the first one.
* `Session.duplicates_unseen` — so it is in every session, as long as documents bring the rules.
-/

namespace Telltale

/-! ## Times -/

@[simp] theorem Timestamp.latest_latest (a b : Timestamp) :
    (a.latest b).latest b = a.latest b := by
  rcases latest_eq_or a b with h | h
  · rw [h, h]
  · rw [h, latest_self]

namespace Recency

variable {r : Recency}

theorem prune_prune (r : Recency) (now : Timestamp) (window : Int) :
    (r.prune now window).prune now window = r.prune now window := by
  unfold prune
  rw [List.filter_filter]
  simp only [Bool.and_self]

/-- Once a prune has nothing to drop and a record at its time was made, doing both again changes
nothing. -/
theorem record_prune_record (h : r.Ordered) {now : Timestamp} {window : Int}
    (hpruned : r.prune now window = r) (event : String) :
    ((r.record event now).prune now window).record event now = r.record event now := by
  have hrecord := h.record event now
  have hkept (name : String) :
      (r.lastSeen? name).filter (fun time => now.since time ≤ window) = r.lastSeen? name := by
    rw [← lastSeen?_prune h, hpruned]
  refine ((hrecord.prune now window).record event now).ext hrecord fun name => ?_
  rw [lastSeen?_record, lastSeen?_prune hrecord, lastSeen?_prune hrecord, lastSeen?_record,
    lastSeen?_record, if_pos rfl]
  by_cases hname : name = event
  · subst hname
    rw [if_pos rfl, if_pos rfl]
    generalize hlatest : ((r.lastSeen? name).getD now).latest now = last
    rw [Option.filter_some]
    split
    · rw [Option.getD_some, ← hlatest, Timestamp.latest_latest]
    -- only the time of the record itself can be pruned, by a window that is less than no time
    · next hgone =>
      rw [Option.getD_none, Timestamp.latest_self, ← hlatest]
      rcases Timestamp.latest_eq_or ((r.lastSeen? name).getD now) now with heq | heq
      · cases hlast : r.lastSeen? name with
        | none => rw [Option.getD_none, Timestamp.latest_self]
        | some time =>
          rw [hlast, Option.getD_some] at heq hlatest
          have htime := hkept name
          rw [hlast, heq.symm.trans hlatest, Option.filter_some, if_neg hgone] at htime
          cases htime
      · rw [heq]
  · rw [if_neg hname, if_neg hname, hkept]

end Recency

/-- Bringing an index up to a frame twice is bringing it up once. -/
theorem Session.recencyAt_recencyAt {r : Recency} (h : r.Ordered) (window : Int) (f : Frame) :
    recencyAt (recencyAt r window f) window f = recencyAt r window f := by
  unfold recencyAt Recency.record?
  cases f.eventName? with
  | none => exact r.prune_prune f.timestamp window
  | some event =>
    exact Recency.record_prune_record (h.prune f.timestamp window)
      (r.prune_prune f.timestamp window) event

/-! ## Verdicts -/

namespace Trigger

variable {t : Trigger} {actor : String} {e : Evidence} {rules : List Rule}

/-- What rules come to on a frame, where it is definite, is what is remembered of them. -/
def Settled (t : Trigger) (actor : String) (e : Evidence) (rules : List Rule) : Prop :=
  ∀ r ∈ rules, (r.judge e).isDefinite = true → t.memory.get? r.id actor = some (r.judge e)

/-- Rules are settled once they were judged. With one identifier for two rules, the later one would
take the place of the earlier one in the memory. -/
theorem Current.settled_processEach (h : t.Current) (hids : (rules.map (·.id)).Nodup) :
    Settled (Trigger.processEach actor e rules t).2 actor e rules := by
  intro r hr hdefinite
  obtain ⟨-, hmemory⟩ := processEach_of_mem h actor e hids hr
  rw [hmemory, get?_dispatch h, if_pos ⟨rfl, rfl, hdefinite⟩]

/-- Settled rules do nothing. -/
theorem Current.processEach_settled (h : t.Current) (hsettled : Settled t actor e rules) :
    Trigger.processEach actor e rules t = ([], t) := by
  induction rules with
  | nil => rfl
  | cons r rest ih =>
    obtain ⟨hr, hrest⟩ := List.forall_mem_cons.mp hsettled
    have hnone : t.dispatch r actor (r.judge e) = (none, t) := by
      rw [dispatch_eq h]
      exact if_neg fun hnews => hnews.2 (hr hnews.1)
    rw [processEach_cons, hnone, ih hrest]
    rfl

theorem Current.process_process (h : t.Current) (hids : (t.ruleSet.rules.map (·.id)).Nodup) :
    (t.process actor e).2.process actor e = ([], (t.process actor e).2) := by
  show Trigger.processEach actor e (t.process actor e).2.ruleSet.rules _ = _
  rw [ruleSet_process]
  exact (h.process actor e).processEach_settled (h.settled_processEach hids)

end Trigger

/-! ## Sessions -/

/-- A tick without its batches. -/
def Tick.quiet (t : Tick) : Tick := { t with batches := [] }

namespace Session

variable {s : Session} {actor : String}

/-- The second tick of a frame is the first one without its batches, and the second session is the
first one. -/
theorem ingest_ingest (hs : s.Sound) (hids : (s.trigger.ruleSet.rules.map (·.id)).Nodup)
    (hordered : (s.stateOf actor).recency.Ordered) (f : Frame) (x : Externals) :
    (s.ingest actor f x).2.ingest actor f x =
      ((s.ingest actor f x).1.quiet, (s.ingest actor f x).2) := by
  have hstate : (s.ingest actor f x).2.stateOf actor = s.stateAfter actor f x := by
    rw [stateOf, actor?_ingest, if_pos rfl, Option.getD_some]
  have hscene : (s.ingest actor f x).2.sceneOf actor f x = s.sceneOf actor f x := by
    unfold sceneOf
    rw [hstate]
    show Scene.mk f x (recencyAt (recencyAt _ s.window f) s.window f) f.timestamp = _
    rw [recencyAt_recencyAt hordered]
  have hderived : (s.ingest actor f x).2.derivedOf actor f x = s.derivedOf actor f x := by
    unfold derivedOf
    rw [hscene]
    rfl
  have hprocessed :
      (s.ingest actor f x).2.processedOf actor f x = ([], (s.ingest actor f x).2.trigger) := by
    unfold processedOf
    rw [hderived]
    exact hs.1.process_process hids
  have hafter : (s.ingest actor f x).2.stateAfter actor f x = s.stateAfter actor f x := by
    unfold stateAfter
    rw [hscene, hprocessed, hstate]
    rfl
  have htick : (s.ingest actor f x).2.tickOf actor f x = (s.ingest actor f x).1.quiet := by
    unfold tickOf
    rw [hderived, hprocessed]
    rfl
  rw [ingest_eq (s.ingest actor f x).2, htick, hprocessed, hafter, ingest_eq s]
  show (_, Session.mk s.deriver _ s.window (Table.insert actor _ (Table.insert actor _ s.actors))) = _
  rw [Table.insert_insert]

/-- The times of every actor stand in order, after every run. -/
theorem ordered_run (d : Deriver) (rules : RuleSet) (window : Int) (calls : List Event)
    (actor : String) : ((run calls (start d rules window)).2.stateOf actor).recency.Ordered := by
  rw [recency_run]
  exact Recency.ordered_after (changesOf actor window calls)

/-- If documents bring the rules of a run, one brings those that are loaded after it. -/
theorem loaded_run (d : Deriver) {rules : RuleSet} (window : Int) {calls : List Event}
    (hrules : ∃ c, rules.Loaded c)
    (hcalls : ∀ rules', .reload rules' ∈ calls → ∃ c, rules'.Loaded c) :
    ∃ c, (run calls (start d rules window)).2.trigger.ruleSet.Loaded c := by
  refine run_induction_of_mem (P := fun s => ∃ c, s.trigger.ruleSet.Loaded c)
    (fun s call hcall hs => ?_) hrules
  cases call with
  | ingest actor f x =>
    have hsame : (s.ingest actor f x).2.trigger.ruleSet = s.trigger.ruleSet :=
      Trigger.ruleSet_process s.trigger actor _
    exact hsame ▸ hs
  | reload rules' => exact hcalls rules' hcall
  | resize window' => exact hs

/-- **A frame that comes in twice in a row is as good as one that comes in once.** After any run in
which documents bring the rules, the second tick of a frame has the snapshot and the diagnostics of
the first one and no batches, and the second time leaves the session as the first time left it: the
flags and times of all actors, and all that is remembered. -/
theorem duplicates_unseen (d : Deriver) (rules : RuleSet) (window : Int) (before : List Event)
    (hrules : ∃ c, rules.Loaded c)
    (hbefore : ∀ rules', .reload rules' ∈ before → ∃ c, rules'.Loaded c)
    (actor : String) (f : Frame) (x : Externals) :
    let once := (run before (start d rules window)).2.ingest actor f x
    once.2.ingest actor f x = (once.1.quiet, once.2) := by
  obtain ⟨c, text, htext⟩ := loaded_run d window hrules hbefore
  exact ingest_ingest (sound_run d rules window before) (Rule.nodup_ids_of_listOfText htext)
    (ordered_run d rules window before actor) f x

end Session

/-- A note of the journal that also tells of the lamp and the horn. -/
def Frame.docked (second : Int) : Frame :=
  ⟨.journal, some "Docked", ⟨second, 0⟩, .object [("horn", .bool false), ("lamp", .bool true)]⟩

/-- The frame comes in after a later one and after the rules were replaced; one rule fires, and the
other one fails without actions for that. -/
theorem Session.duplicates_unseen_lamp :
    let d : Deriver := ⟨pier, .absent⟩
    let before : List Event := [.ingest "a" (noteAt 3 "Music") .absent,
      .ingest "a" (noteAt 12 "Docked") .absent, .reload (lamps 2),
      .ingest "b" (.docked 2) .absent]
    let once := (run before (start d (lamps 1) (windowOfSeconds 5))).2.ingest "a" (.docked 9) .absent
    (∃ c, (lamps 1).Loaded c) ∧ (∀ rules, .reload rules ∈ before → ∃ c, rules.Loaded c) ∧
    once.1.batches.map (·.rule) = ["lamp"] ∧ once.2.trigger.memory.get? "horn" "a" = some .fails ∧
    (once.2.recency? "a").map (·.seen) = some [("Docked", ⟨12, 0⟩)] ∧
    once.2.ingest "a" (.docked 9) .absent = (once.1.quiet, once.2) := by
  intro d before once
  have hrules : ∃ c, (lamps 1).Loaded c := ⟨_, loaded_lamps 1⟩
  have hbefore : ∀ rules, .reload rules ∈ before → ∃ c, rules.Loaded c := by
    intro rules hmem
    obtain rfl : rules = lamps 2 := by simpa [before] using hmem
    exact ⟨_, loaded_lamps 2⟩
  refine ⟨hrules, hbefore, by decide +kernel, by decide +kernel, by decide +kernel, ?_⟩
  exact duplicates_unseen d (lamps 1) (windowOfSeconds 5) before hrules hbefore "a" (.docked 9)
    .absent

end Telltale
