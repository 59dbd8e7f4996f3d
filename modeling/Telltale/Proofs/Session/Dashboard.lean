import Mathlib.Data.List.Forall2
import Telltale.Proofs.Expr.Reads
import Telltale.Proofs.Rule.Evidence
import Telltale.Proofs.Rule.Loaded
import Telltale.Proofs.Session.Run
import Telltale.Proofs.Snapshot.Diagnostics

/-!
# Rules over polled frames

Polled frames come between frames of other sources, which say nothing of what is polled. Rules that
look at nothing else take no notice of them.

* `Signal.read_eq_absent` — a signal over polled frames has no value on a frame of another source,
  and is not complained of.
* `Operand.DashboardOnly`, `Rule.DashboardOnly` — what an operand and a rule look at is the data of
  polled frames.
* `Rule.DashboardOnly.judge_eq_undecided`, `Rule.DashboardOnly.judge_congr` — such a rule is
  undecided on a frame of another source, and on every frame its verdict does not depend on what
  was seen before.
* `Session.Undisturbed` — two sessions remember the same of all such rules. It is kept by the same
  call in both (`Undisturbed.ingest`) and by a frame of another source in one of them
  (`Undisturbed.ingest_other`).
* `Session.dashboard_rules_undisturbed` — inserting frames of other sources into a run brings no
  batch of such a rule and leaves all its other batches as they were.
-/

namespace Telltale

/-! ## Signals -/

namespace Signal

variable {d : Deriver} {s : Signal}

/-- A signal over polled frames has no value on a frame of another source. -/
theorem read_eq_absent (hc : d.catalog.Accepted) (hs : s ∈ d.catalog.signals)
    (h : s.expr.DashboardOnly d.catalog.vocabulary) {scene : Scene}
    (hsource : scene.frame.source ≠ .dashboard) : d.read scene s = .absent := by
  obtain ⟨-, -, -, hfault, -⟩ := checks_of_fault? (hc.fault?_eq_none hs)
  rw [Deriver.read, Signal.read, h.eval_eq_none hfault hsource]

theorem read_congr (h : s.expr.DashboardOnly d.catalog.vocabulary) (f : Frame) (x : Externals)
    (r r' : Recency) (now : Timestamp) : d.read ⟨f, x, r, now⟩ s = d.read ⟨f, x, r', now⟩ s := by
  rw [Deriver.read, Signal.read, h.eval_congr f x r r' now, ← Signal.read, ← Deriver.read]

/-- The entry of a signal over polled frames is a fallback on a frame of another source, and no
diagnostic is about it. -/
theorem falls_back (hc : d.catalog.Accepted) (hs : s ∈ d.catalog.signals)
    (h : s.expr.DashboardOnly d.catalog.vocabulary) {scene : Scene}
    (hsource : scene.frame.source ≠ .dashboard) :
    (d.derive scene).snapshot.entry? s.id = some ⟨s.id, s.defaultValue, true⟩ ∧
    ∀ diagnostic ∈ (d.derive scene).diagnostics, diagnostic.signal ≠ s.id := by
  have habsent : d.read scene s = .absent := read_eq_absent hc hs h hsource
  constructor
  · rw [Snapshot.entry?, ← List.head?_filter, filter_snapshot hc scene hs, habsent]
    rfl
  · intro diagnostic hmem hsignal
    obtain ⟨s', hs', hrefused⟩ := mem_diagnostics.mp hmem
    have hid : s'.id = s.id := (of_read_refused hrefused).1.symm.trans hsignal
    rw [hc.eq_of_id hs' hs hid, habsent] at hrefused
    cases hrefused

end Signal

/-! ## Rules -/

/-- What a rule is judged by on a scene. -/
def Deriver.evidence (d : Deriver) (scene : Scene) : Evidence :=
  ⟨scene.frame, scene.externals, (d.derive scene).snapshot⟩

/-- An operand is a signal over polled frames or a place in their data. -/
def Operand.DashboardOnly (c : Catalog) : Operand → Prop
  | .signal id => ∃ s, c.get? id = some s ∧ s.expr.DashboardOnly c.vocabulary
  | .field path => Path.IsDashboard path
  | .flags _ path => Path.IsDashboard path

namespace Operand.DashboardOnly

variable {d : Deriver} {o : Operand}

theorem value?_eq_none (hc : d.catalog.Accepted) (h : o.DashboardOnly d.catalog) {scene : Scene}
    (hsource : scene.frame.source ≠ .dashboard) : (d.evidence scene).value? o = none := by
  cases o with
  | signal id =>
    obtain ⟨s, hget, hexpr⟩ := h
    show (d.derive scene).snapshot.derived? id = none
    rw [derived?_derive, hget, Option.bind_some,
      Signal.read_eq_absent hc (List.mem_of_find?_eq_some hget) hexpr hsource]
    rfl
  | field path => exact lookup_eq_none h hsource scene.externals
  | flags group path => exact lookup_eq_none h hsource scene.externals

theorem value?_congr (h : o.DashboardOnly d.catalog) (f : Frame) (x : Externals) (r r' : Recency)
    (now : Timestamp) :
    (d.evidence ⟨f, x, r, now⟩).value? o = (d.evidence ⟨f, x, r', now⟩).value? o := by
  cases o with
  | signal id =>
    obtain ⟨s, hget, hexpr⟩ := h
    show (d.derive _).snapshot.derived? id = (d.derive _).snapshot.derived? id
    rw [derived?_derive, derived?_derive, hget, Option.bind_some, Option.bind_some,
      Signal.read_congr hexpr f x r r' now]
  | field path => rfl
  | flags group path => rfl

end Operand.DashboardOnly

namespace Condition

/-- Undecided members leave a group undecided, unless it is empty. -/
theorem group_eq_undecided {e : Evidence} {members : List Condition} (hne : members ≠ [])
    (h : ∀ m ∈ members, m.judge e = .undecided) :
    Verdict.all (judgeEach e members) = .undecided ∧
    Verdict.any (judgeEach e members) = .undecided := by
  have hundecided : ∀ v ∈ judgeEach e members, v = .undecided := by
    rw [judgeEach_eq_map]
    intro v hv
    obtain ⟨m, hm, rfl⟩ := List.mem_map.mp hv
    exact h m hm
  have hmap : judgeEach e members ≠ [] := by
    rw [judgeEach_eq_map]
    exact mt List.map_eq_nil_iff.mp hne
  rw [Verdict.all_of_undecided hundecided, Verdict.any_of_undecided hundecided, if_neg hmap,
    if_neg hmap]
  exact ⟨rfl, rfl⟩

/-- A loaded condition without a decided leaf is undecided. -/
theorem Loaded.judge_eq_undecided {c : Catalog} {cond : Condition} (hload : cond.Loaded c)
    {e : Evidence} (h : ∀ l ∈ cond.leaves, l.judge e = .undecided) :
    cond.judge e = .undecided := by
  induction hload with
  | all hne _ ih =>
    exact (group_eq_undecided hne fun m hm => ih m hm fun l hl => h l (mem_leavesOf hm hl)).1
  | any hne _ ih =>
    exact (group_eq_undecided hne fun m hm => ih m hm fun l hl => h l (mem_leavesOf hm hl)).2
  | leaf _ => exact h _ (List.mem_singleton_self _)

theorem loaded_group_eq_undecided {c : Catalog} {members : List Condition}
    (hgroup : members ≠ [] ∧ ∀ m ∈ members, m.Loaded c) {e : Evidence}
    (h : ∀ l ∈ leavesOf members, l.judge e = .undecided) :
    Verdict.all (judgeEach e members) = .undecided ∧
    Verdict.any (judgeEach e members) = .undecided :=
  group_eq_undecided hgroup.1 fun m hm =>
    (hgroup.2 m hm).judge_eq_undecided fun l hl => h l (mem_leavesOf hm hl)

end Condition

namespace Rule

/-- A loaded rule without a decided leaf is undecided where its filter lets the frame through. -/
theorem judgeCondition_eq_undecided {c : Catalog} {s : RuleSet} (hs : s.Loaded c) {r : Rule}
    (hr : r ∈ s.rules) {e : Evidence} (h : ∀ l ∈ r.leaves, l.judge e = .undecided) :
    r.judgeCondition e = .undecided := by
  obtain ⟨text, htext⟩ := hs
  obtain ⟨entry, hentry⟩ := exists_of_mem_listOfText htext hr
  obtain ⟨hall, hany⟩ := RuleEntry.loaded_of_compile hentry
  have hleavesAll (members : List Condition) (heq : r.all = some members) :
      ∀ l ∈ Condition.leavesOf members, l.judge e = .undecided := by
    intro l hl
    refine h l (List.mem_append_left _ ?_)
    rwa [heq]
  have hleavesAny (members : List Condition) (heq : r.any = some members) :
      ∀ l ∈ Condition.leavesOf members, l.judge e = .undecided := by
    intro l hl
    refine h l (List.mem_append_right _ ?_)
    rwa [heq]
  unfold judgeCondition
  cases ha : r.all with
  | none =>
    cases hb : r.any with
    | none => rfl
    | some any => exact (Condition.loaded_group_eq_undecided (hany any hb) (hleavesAny any hb)).2
  | some all =>
    have hallUndecided := (Condition.loaded_group_eq_undecided (hall all ha) (hleavesAll all ha)).1
    cases hb : r.any with
    | none => exact hallUndecided
    | some any =>
      show (Verdict.all _).both (Verdict.any _) = .undecided
      rw [hallUndecided,
        (Condition.loaded_group_eq_undecided (hany any hb) (hleavesAny any hb)).2]
      rfl

/-- A rule has no filter, and all that it looks at is the data of polled frames. -/
structure DashboardOnly (c : Catalog) (r : Rule) : Prop where
  filter : r.filter.isEmpty = true
  leaves : ∀ l ∈ r.leaves, l.operand.DashboardOnly c

namespace DashboardOnly

variable {d : Deriver} {r : Rule}

theorem judge_eq_undecided (hc : d.catalog.Accepted) {s : RuleSet} (hs : s.Loaded d.catalog)
    (hr : r ∈ s.rules) (h : r.DashboardOnly d.catalog) {scene : Scene}
    (hsource : scene.frame.source ≠ .dashboard) : r.judge (d.evidence scene) = .undecided := by
  have hcondition : r.judgeCondition (d.evidence scene) = .undecided := by
    refine judgeCondition_eq_undecided hs hr fun l hl => ?_
    rw [Leaf.judge, (h.leaves l hl).value?_eq_none hc hsource]
  obtain ⟨hnone, hnil⟩ := Bool.and_eq_true_iff.mp h.filter
  rw [judge, Filter.accepts, Option.isNone_iff_eq_none.mp hnone, hnil, hcondition]
  exact if_pos rfl

theorem judge_congr (h : r.DashboardOnly d.catalog) (f : Frame) (x : Externals) (seen seen' : Recency)
    (now : Timestamp) :
    r.judge (d.evidence ⟨f, x, seen, now⟩) = r.judge (d.evidence ⟨f, x, seen', now⟩) :=
  Rule.judge_congr rfl rfl fun l hl => (h.leaves l hl).value?_congr f x seen seen' now

end DashboardOnly

end Rule

/-! ## Triggers -/

/-- The batches of a rule among others. -/
def Rule.batchesIn (r : Rule) (batches : List Batch) : List Batch :=
  batches.filter (·.rule == r.id)

/-- Two triggers have the same loaded rules and remember the same of those over polled frames. -/
structure Trigger.Undisturbed (c : Catalog) (t t' : Trigger) : Prop where
  ruleSet : t.ruleSet = t'.ruleSet
  loaded : t.ruleSet.Loaded c
  current : t.Current
  current' : t'.Current
  memory : ∀ r ∈ t.ruleSet.rules, r.DashboardOnly c → ∀ actor,
    t.memory.get? r.id actor = t'.memory.get? r.id actor

namespace Trigger.Undisturbed

variable {c : Catalog} {t t' : Trigger}

theorem start {rules : RuleSet} (h : rules.Loaded c) : Undisturbed c (.start rules) (.start rules) :=
  ⟨rfl, h, current_start rules, current_start rules, fun _ _ _ _ => rfl⟩

theorem nodup_ids (h : Undisturbed c t t') : (t.ruleSet.rules.map (·.id)).Nodup := by
  obtain ⟨text, htext⟩ := h.loaded
  exact Rule.nodup_ids_of_listOfText htext

/-- Where such rules judge two frames alike, they bring the same batches. -/
theorem process (h : Undisturbed c t t') (actor : String) {e e' : Evidence}
    (hjudge : ∀ r ∈ t.ruleSet.rules, r.DashboardOnly c → r.judge e = r.judge e') :
    (∀ r ∈ t.ruleSet.rules, r.DashboardOnly c →
      r.batchesIn (t.process actor e).1 = r.batchesIn (t'.process actor e').1) ∧
    Undisturbed c (t.process actor e).2 (t'.process actor e').2 := by
  have hids' : (t'.ruleSet.rules.map (·.id)).Nodup := h.ruleSet ▸ h.nodup_ids
  have hrule (r : Rule) (hr : r ∈ t.ruleSet.rules) (hdash : r.DashboardOnly c) :
      r.batchesIn (t.process actor e).1 = r.batchesIn (t'.process actor e').1 ∧
      ∀ other, (t.process actor e).2.memory.get? r.id other =
        (t'.process actor e').2.memory.get? r.id other := by
    have hr' : r ∈ t'.ruleSet.rules := h.ruleSet ▸ hr
    obtain ⟨hbatches, hmemory⟩ := processEach_of_mem h.current actor e h.nodup_ids hr
    obtain ⟨hbatches', hmemory'⟩ := processEach_of_mem h.current' actor e' hids' hr'
    obtain ⟨hbatch, hafter⟩ :=
      dispatch_congr h.current h.current' (h.memory r hr hdash) actor (r.judge e)
    rw [← hjudge r hr hdash] at hbatches' hmemory'
    constructor
    · exact hbatches.trans ((congrArg Option.toList hbatch).trans hbatches'.symm)
    · exact fun other => (hmemory other).trans ((hafter other).trans (hmemory' other).symm)
  refine ⟨fun r hr hdash => (hrule r hr hdash).1, ?_, ?_, h.current.process actor e,
    h.current'.process actor e', ?_⟩
  · rw [ruleSet_process, ruleSet_process, h.ruleSet]
  · rw [ruleSet_process]
    exact h.loaded
  · rw [ruleSet_process]
    exact fun r hr hdash => (hrule r hr hdash).2

/-- Where such rules are undecided they bring no batch, and the frame makes no difference. -/
theorem process_undecided (h : Undisturbed c t t') (actor : String) {e : Evidence}
    (hjudge : ∀ r ∈ t.ruleSet.rules, r.DashboardOnly c → r.judge e = .undecided) :
    (∀ r ∈ t.ruleSet.rules, r.DashboardOnly c → r.batchesIn (t.process actor e).1 = []) ∧
    Undisturbed c (t.process actor e).2 t' := by
  have hrule (r : Rule) (hr : r ∈ t.ruleSet.rules) (hdash : r.DashboardOnly c) :
      r.batchesIn (t.process actor e).1 = [] ∧
      ∀ other, (t.process actor e).2.memory.get? r.id other = t.memory.get? r.id other := by
    have hown := processEach_of_mem h.current actor e h.nodup_ids hr
    rw [hjudge r hr hdash] at hown
    exact hown
  refine ⟨fun r hr hdash => (hrule r hr hdash).1, ?_, ?_, h.current.process actor e, h.current', ?_⟩
  · rw [ruleSet_process, h.ruleSet]
  · rw [ruleSet_process]
    exact h.loaded
  · rw [ruleSet_process]
    exact fun r hr hdash other =>
      ((hrule r hr hdash).2 other).trans (h.memory r hr hdash other)

end Trigger.Undisturbed

namespace Session

/-! ## Sessions -/

/-- Two sessions derive the same and remember the same of the rules over polled frames. They may
differ in the times of events, the flags and the window. -/
structure Undisturbed (d : Deriver) (s s' : Session) : Prop where
  deriver : s.deriver = d
  deriver' : s'.deriver = d
  trigger : Trigger.Undisturbed d.catalog s.trigger s'.trigger

theorem undisturbed_start (d : Deriver) {rules : RuleSet} (h : rules.Loaded d.catalog)
    (window : Int) : Undisturbed d (start d rules window) (start d rules window) :=
  ⟨rfl, rfl, .start h⟩

theorem processedOf_eq (s : Session) (actor : String) (f : Frame) (x : Externals) :
    s.processedOf actor f x = s.trigger.process actor (s.deriver.evidence (s.sceneOf actor f x)) :=
  rfl

namespace Undisturbed

variable {d : Deriver} {s s' : Session}

/-- The same frame brings the same batches of such rules. -/
theorem ingest (h : Undisturbed d s s') (actor : String) (f : Frame) (x : Externals) :
    (∀ r ∈ s.trigger.ruleSet.rules, r.DashboardOnly d.catalog →
      r.batchesIn (s.ingest actor f x).1.batches = r.batchesIn (s'.ingest actor f x).1.batches) ∧
    Undisturbed d (s.ingest actor f x).2 (s'.ingest actor f x).2 := by
  have hjudge : ∀ r ∈ s.trigger.ruleSet.rules, r.DashboardOnly d.catalog →
      r.judge (d.evidence (s.sceneOf actor f x)) = r.judge (d.evidence (s'.sceneOf actor f x)) :=
    fun r _ hdash => hdash.judge_congr f x _ _ f.timestamp
  obtain ⟨hbatches, hnext⟩ := h.trigger.process actor hjudge
  rw [ingest_eq, ingest_eq]
  unfold tickOf
  rw [processedOf_eq, processedOf_eq, h.deriver, h.deriver']
  exact ⟨hbatches, rfl, rfl, hnext⟩

/-- A frame of another source brings no batch of such rules and makes no difference. -/
theorem ingest_other (h : Undisturbed d s s') (hc : d.catalog.Accepted) (actor : String) {f : Frame}
    (hf : f.source ≠ .dashboard) (x : Externals) :
    (∀ r ∈ s.trigger.ruleSet.rules, r.DashboardOnly d.catalog →
      r.batchesIn (s.ingest actor f x).1.batches = []) ∧
    Undisturbed d (s.ingest actor f x).2 s' := by
  have hjudge : ∀ r ∈ s.trigger.ruleSet.rules, r.DashboardOnly d.catalog →
      r.judge (d.evidence (s.sceneOf actor f x)) = .undecided :=
    fun r hr hdash => hdash.judge_eq_undecided hc h.trigger.loaded hr hf
  obtain ⟨hbatches, hnext⟩ := h.trigger.process_undecided actor hjudge
  rw [ingest_eq]
  unfold tickOf
  rw [processedOf_eq, h.deriver]
  exact ⟨hbatches, rfl, h.deriver', hnext⟩

theorem reload (h : Undisturbed d s s') {rules : RuleSet} (hrules : rules.Loaded d.catalog) :
    Undisturbed d (s.reload rules) (s'.reload rules) :=
  ⟨h.deriver, h.deriver', .start hrules⟩

theorem resize (h : Undisturbed d s s') (window : Int) :
    Undisturbed d (s.step (.resize window)).2 (s'.step (.resize window)).2 :=
  ⟨h.deriver, h.deriver', h.trigger⟩

end Undisturbed

/-! ## Runs with inserted frames -/

/-- What comes of a frame on a run: whether the frame was inserted, the rules at that time, and the
tick. -/
structure Moment where
  isInserted : Bool
  rules : List Rule
  tick : Tick

/-- What comes of the frames of a run, where each call says whether it was inserted. -/
def moments : List (Bool × Event) → Session → List Moment
  | [], _ => []
  | (isInserted, call) :: rest, s =>
    (s.step call).1.toList.map (⟨isInserted, s.trigger.ruleSet.rules, ·⟩) ++
      moments rest (s.step call).2

theorem moments_ingest (isInserted : Bool) (actor : String) (f : Frame) (x : Externals)
    (rest : List (Bool × Event)) (s : Session) :
    moments ((isInserted, .ingest actor f x) :: rest) s =
      ⟨isInserted, s.trigger.ruleSet.rules, (s.ingest actor f x).1⟩ ::
        moments rest (s.ingest actor f x).2 := rfl

theorem moments_of_step {call : Event} {s : Session} (h : (s.step call).1 = none)
    (isInserted : Bool) (rest : List (Bool × Event)) :
    moments ((isInserted, call) :: rest) s = moments rest (s.step call).2 := by
  rw [moments, h, Option.toList_none, List.map_nil, List.nil_append]

theorem ticks_moments (calls : List (Bool × Event)) (s : Session) :
    (moments calls s).map (·.tick) = (run (calls.map (·.2)) s).1 := by
  induction calls generalizing s with
  | nil => rfl
  | cons call rest ih =>
    rw [List.map_cons, run_cons, ← ih, moments, List.map_append, List.map_map]
    exact congrArg (· ++ _) (List.map_id _)

/-- The same actor, the same rules, and the same batches of the rules over polled frames. -/
structure Moment.Agrees (c : Catalog) (m m' : Moment) : Prop where
  actor : m.tick.actor = m'.tick.actor
  rules : m.rules = m'.rules
  batches : ∀ r ∈ m.rules, r.DashboardOnly c →
    r.batchesIn m.tick.batches = r.batchesIn m'.tick.batches

/-- A call takes in a frame of another source than the polled ones. -/
inductive Event.IsOther : Event → Prop where
  | ingest (actor : String) {f : Frame} (hf : f.source ≠ .dashboard) (x : Externals) :
    IsOther (.ingest actor f x)

variable {d : Deriver} {s s' : Session}

/-- From undisturbed sessions, a run with inserted frames and the same without them go alike. -/
theorem Undisturbed.agree (h : Undisturbed d s s') (hc : d.catalog.Accepted)
    {calls : List (Bool × Event)}
    (hload : ∀ isInserted rules, (isInserted, .reload rules) ∈ calls → rules.Loaded d.catalog)
    (hother : ∀ call, (true, call) ∈ calls → call.IsOther) :
    (∀ m ∈ moments calls s, m.isInserted = true → ∀ r ∈ m.rules, r.DashboardOnly d.catalog →
      r.batchesIn m.tick.batches = []) ∧
    List.Forall₂ (Moment.Agrees d.catalog) ((moments calls s).filter (!·.isInserted))
      (moments (calls.filter (!·.1)) s') := by
  -- along the run, the relation says what the two sessions still have in common
  induction calls generalizing s s' with
  | nil => exact ⟨nofun, .nil⟩
  | cons head rest ih =>
    obtain ⟨isInserted, call⟩ := head
    have hload' := fun i rules hmem => hload i rules (List.mem_cons_of_mem (isInserted, call) hmem)
    have hother' := fun call' hmem => hother call' (List.mem_cons_of_mem (isInserted, call) hmem)
    cases isInserted with
    | true =>
      obtain ⟨actor, hf, x⟩ := hother call List.mem_cons_self
      obtain ⟨hnone, hnext⟩ := h.ingest_other hc actor hf x
      obtain ⟨hquiet, hagree⟩ := ih hnext hload' hother'
      rw [moments_ingest, List.filter_cons_of_neg (by simp), List.filter_cons_of_neg (by simp)]
      exact ⟨List.forall_mem_cons.mpr ⟨fun _ => hnone, hquiet⟩, hagree⟩
    | false =>
      cases call with
      | ingest actor f x =>
        obtain ⟨hsame, hnext⟩ := h.ingest actor f x
        obtain ⟨hquiet, hagree⟩ := ih hnext hload' hother'
        have hrules : s.trigger.ruleSet.rules = s'.trigger.ruleSet.rules := by
          rw [h.trigger.ruleSet]
        rw [List.filter_cons_of_pos (by simp), moments_ingest, moments_ingest,
          List.filter_cons_of_pos (by simp)]
        exact ⟨List.forall_mem_cons.mpr ⟨nofun, hquiet⟩, .cons ⟨rfl, hrules, hsame⟩ hagree⟩
      | reload rules =>
        rw [List.filter_cons_of_pos (by simp), moments_of_step rfl, moments_of_step rfl]
        exact ih (h.reload (hload false rules List.mem_cons_self)) hload' hother'
      | resize window =>
        rw [List.filter_cons_of_pos (by simp), moments_of_step rfl, moments_of_step rfl]
        exact ih (h.resize window) hload' hother'

/-- **Frames of other sources do not disturb rules over polled frames.** In an accepted catalog, an
expression over polled frames has no value on a frame of another source, and its signal falls back
without a diagnostic. So inserting such frames into any run, for any actors and at any points,
brings no batch of a rule over polled frames, and all other frames bring the batches of that rule
that they bring without the inserted ones. -/
theorem dashboard_rules_undisturbed {c : Catalog} {cs : Combiners} {d : Deriver} (hc : c.Accepted)
    (hd : Deriver.build c cs = .ok d) :
    (∀ e : Expr, e.DashboardOnly c.vocabulary → e.fault? c.vocabulary = none →
      ∀ scene : Scene, scene.frame.source ≠ .dashboard → e.eval c.vocabulary cs scene = none) ∧
    (∀ s ∈ c.signals, s.expr.DashboardOnly c.vocabulary →
      ∀ scene : Scene, scene.frame.source ≠ .dashboard →
        (d.derive scene).snapshot.entry? s.id = some ⟨s.id, s.defaultValue, true⟩ ∧
        ∀ diagnostic ∈ (d.derive scene).diagnostics, diagnostic.signal ≠ s.id) ∧
    ∀ (rules : RuleSet) (window : Int) (calls : List (Bool × Event)), rules.Loaded c →
      (∀ isInserted rules', (isInserted, .reload rules') ∈ calls → rules'.Loaded c) →
      (∀ call, (true, call) ∈ calls → call.IsOther) →
      let s := start d rules window
      let full := moments calls s
      let kept := moments (calls.filter (!·.1)) s
      full.map (·.tick) = (run (calls.map (·.2)) s).1 ∧
      kept.map (·.tick) = (run ((calls.filter (!·.1)).map (·.2)) s).1 ∧
      (∀ m ∈ full, m.isInserted = true → ∀ r ∈ m.rules, r.DashboardOnly c →
        r.batchesIn m.tick.batches = []) ∧
      List.Forall₂ (Moment.Agrees c) (full.filter (!·.isInserted)) kept := by
  obtain rfl : d = ⟨c, cs⟩ := eq_of_build hd
  refine ⟨fun e he hfault scene hf => he.eval_eq_none hfault hf,
    fun s hs he scene hf => Signal.falls_back hc hs he hf, ?_⟩
  intro rules window calls hrules hload hother s full kept
  refine ⟨ticks_moments calls s, ticks_moments (calls.filter (!·.1)) s, ?_⟩
  exact (undisturbed_start ⟨c, cs⟩ hrules window).agree hc hload hother

end Session

/-- A catalog of one signal over the bits of polled frames. -/
def harbour : Catalog where
  version := 1
  vocabulary := ⟨[("ship", ⟨"dashboard.Flags", [("docked", 0)]⟩)], []⟩
  signals := [{
    id := "docked"
    type := .bool
    values := []
    default := none
    description := none
    expr := .firstMatch [(.all [.bitfield none (some "ship") (.name "docked") none], .bool true)]
      (some (.bool false)) }]

/-- A rule over polled frames, with a group inside its group. -/
def Rule.dock : Rule where
  id := "dock"
  title := "Dock"
  filter := ⟨none, []⟩
  all := none
  any := some [.leaf ⟨.signal "docked", .compare .eq (.bool true)⟩,
    .all [.leaf ⟨.field "dashboard.Landed", .compare .eq (.bool true)⟩]]
  onRise := [.log "In port"]
  onFall := []

def harbourRules : RuleSet := ⟨1, [.dock]⟩

/-- Whether rules are this one alone. -/
def isDock : List Rule → Bool
  | [⟨"dock", "Dock", ⟨none, []⟩, none,
      some [.leaf ⟨.signal "docked", .compare .eq (.bool true)⟩,
        .all [.leaf ⟨.field "dashboard.Landed", .compare .eq (.bool true)⟩]],
      [.log "In port"], []⟩] => true
  | _ => false

theorem eq_of_isDock {rules : List Rule} (h : isDock rules = true) : rules = [.dock] := by
  unfold isDock at h
  split at h
  · rfl
  · cases h

theorem loaded_harbourRules : harbourRules.Loaded harbour := by
  have hload : (Rule.listOfText harbour ("rules:\n- title: Dock\n  when:\n    any:\n" ++
      "    - signal: docked\n      eq: true\n    - all:\n      - field: dashboard.Landed\n" ++
      "        eq: true\n  then:\n  - type: log\n    message: In port\n")).toOption.any isDock =
        true := by
    decide +kernel
  obtain ⟨rules, hrules, hdock⟩ := exists_of_any_toOption hload
  exact ⟨_, eq_of_isDock hdock ▸ hrules⟩

theorem dashboardOnly_harbour :
    ∀ s ∈ harbour.signals, s.expr.DashboardOnly harbour.vocabulary := by
  intro s hs
  obtain rfl := List.mem_singleton.mp hs
  refine .firstMatch fun c hc => ?_
  obtain rfl := List.mem_singleton.mp hc
  refine .all fun e he => ?_
  obtain rfl := List.mem_singleton.mp he
  exact .groupBit rfl (.inr ⟨"Flags", rfl⟩)

theorem dashboardOnly_dock : Rule.dock.DashboardOnly harbour where
  filter := rfl
  leaves := by
    intro l hl
    rcases List.mem_cons.mp hl with rfl | hl
    · exact ⟨_, rfl, dashboardOnly_harbour _ List.mem_cons_self⟩
    · obtain rfl := List.mem_singleton.mp hl
      exact .inr ⟨"Landed", rfl⟩

/-- A polled frame with the bits of a word. -/
def Frame.polled (flags : Nat) : Frame :=
  ⟨.dashboard, none, ⟨0, 0⟩, .object [("Flags", Json.ofNat flags)]⟩

/-- A frame of the journal. -/
def Frame.noted (event : String) : Frame := ⟨.journal, some event, ⟨0, 0⟩, .object []⟩

/-- The ship docks, and two frames of the journal come in before it is polled again. -/
theorem Session.dashboard_rules_undisturbed_harbour :
    let d : Deriver := ⟨harbour, .absent⟩
    let calls : List (Bool × Event) := [
      (false, .ingest "a" (.polled 1) .absent), (true, .ingest "a" (.noted "Docked") .absent),
      (true, .ingest "b" (.noted "Music") .absent), (false, .ingest "a" (.polled 1) .absent)]
    let full := moments calls (start d harbourRules 0)
    let kept := moments (calls.filter (!·.1)) (start d harbourRules 0)
    harbour.Accepted ∧ Deriver.build harbour .absent = .ok d ∧ harbourRules.Loaded harbour ∧
    (∀ call, (true, call) ∈ calls → call.IsOther) ∧
    Rule.dock ∈ harbourRules.rules ∧ Rule.dock.DashboardOnly harbour ∧
    full.map (fun m => m.tick.batches.length) = [1, 0, 0, 0] ∧
    (∀ m ∈ full, m.isInserted = true → ∀ r ∈ m.rules, r.DashboardOnly harbour →
      r.batchesIn m.tick.batches = []) ∧
    List.Forall₂ (Moment.Agrees harbour) (full.filter (!·.isInserted)) kept := by
  intro d calls full kept
  have hfault : harbour.fault?.isNone = true := by decide +kernel
  have haccepted : harbour.Accepted := Option.isNone_iff_eq_none.mp hfault
  have hother : ∀ call, (true, call) ∈ calls → call.IsOther := by
    intro call hcall
    have hcases : call = .ingest "a" (.noted "Docked") .absent ∨
        call = .ingest "b" (.noted "Music") .absent := by
      simpa [calls] using hcall
    rcases hcases with rfl | rfl
    · exact .ingest "a" (by decide) .absent
    · exact .ingest "b" (by decide) .absent
  have hreload : ∀ isInserted rules, (isInserted, .reload rules) ∈ calls → rules.Loaded harbour := by
    intro isInserted rules hmem
    simp [calls] at hmem
  obtain ⟨-, -, hrun⟩ := dashboard_rules_undisturbed haccepted rfl
  obtain ⟨-, -, hquiet, hagree⟩ := hrun harbourRules 0 calls loaded_harbourRules hreload hother
  exact ⟨haccepted, rfl, loaded_harbourRules, hother, List.mem_singleton_self _, dashboardOnly_dock,
    by decide +kernel, hquiet, hagree⟩

end Telltale
