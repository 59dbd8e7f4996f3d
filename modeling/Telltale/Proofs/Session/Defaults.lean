import Telltale.Proofs.Catalog.Bare
import Telltale.Proofs.Rule.Evidence
import Telltale.Proofs.Session.Run
import Telltale.Proofs.Snapshot.ClosedWorld

/-!
# Defaults do not reach the rules

Two sessions whose catalogs are the same when bare differ in nothing but the values that stand in
for signals without one.

* `Trigger.Twin`, `Session.Twin` — two triggers have the same rules and remember the same, and two
  sessions also know the same of every actor and have catalogs that are the same when bare.
* `Trigger.Twin.process` — verdicts that are the same bring the same batches.
* `Session.Twin.ingest`, `Session.Twin.step` — the same call brings the same tick, apart from what
  stands in, and keeps sessions twins.
* `Session.Twin.run` — so does a run, by induction on its calls.
* `Session.defaults_unseen` — the same from the catalogs on: every rules document brings the same
  rules against both, and every run brings the same batches, diagnostics, flags, times and memory.
-/

namespace Telltale

/-! ## Triggers -/

/-- Two triggers have the same rules, perhaps of different loadings, and remember the same. -/
structure Trigger.Twin (t t' : Trigger) : Prop where
  rules : t.ruleSet.rules = t'.ruleSet.rules
  current : t.Current
  current' : t'.Current
  verdicts : t.memory.verdicts = t'.memory.verdicts

namespace Trigger.Twin

variable {t t' : Trigger}

theorem start {rules rules' : RuleSet} (h : rules.rules = rules'.rules) :
    Twin (.start rules) (.start rules') :=
  ⟨h, current_start rules, current_start rules', rfl⟩

theorem get?_eq (h : Twin t t') (rule actor : String) :
    t.memory.get? rule actor = t'.memory.get? rule actor := by
  unfold Memory.get?
  rw [h.verdicts]

/-- A verdict brings the same batch and is remembered alike. -/
theorem dispatch (h : Twin t t') (r : Rule) (actor : String) (v : Verdict) :
    (t.dispatch r actor v).1 = (t'.dispatch r actor v).1 ∧
    Twin (t.dispatch r actor v).2 (t'.dispatch r actor v).2 := by
  have hnext := h.current.dispatch r actor v
  have hnext' := h.current'.dispatch r actor v
  rw [dispatch_eq h.current] at hnext ⊢
  rw [dispatch_eq h.current'] at hnext' ⊢
  -- whether the verdict is news depends on what is remembered, which is the same
  rw [h.get?_eq] at hnext ⊢
  split
  · next hchange =>
    rw [if_pos hchange] at hnext hnext'
    refine ⟨rfl, h.rules, hnext, hnext', ?_⟩
    show _ :: _ = _ :: _
    rw [h.verdicts]
  · exact ⟨rfl, h⟩

theorem processEach (h : Twin t t') (actor : String) {e e' : Evidence}
    (hjudge : ∀ r : Rule, r.judge e = r.judge e') (rules : List Rule) :
    (Trigger.processEach actor e rules t).1 = (Trigger.processEach actor e' rules t').1 ∧
    Twin (Trigger.processEach actor e rules t).2 (Trigger.processEach actor e' rules t').2 := by
  induction rules generalizing t t' with
  | nil => exact ⟨rfl, h⟩
  | cons r rest ih =>
    rw [processEach_cons, processEach_cons, ← hjudge r]
    obtain ⟨hbatch, hnext⟩ := h.dispatch r actor (r.judge e)
    obtain ⟨hbatches, hlast⟩ := ih hnext
    exact ⟨by rw [hbatch, hbatches], hlast⟩

theorem process (h : Twin t t') (actor : String) {e e' : Evidence}
    (hjudge : ∀ r : Rule, r.judge e = r.judge e') :
    (t.process actor e).1 = (t'.process actor e').1 ∧
    Twin (t.process actor e).2 (t'.process actor e').2 := by
  unfold Trigger.process
  rw [← h.rules]
  exact h.processEach actor hjudge t.ruleSet.rules

end Trigger.Twin

/-- Rules see nothing of what stands in. -/
theorem Rule.judge_of_sameButDefaults {s s' : Snapshot} (h : s.SameButDefaults s') (f : Frame)
    (x : Externals) (r : Rule) : r.judge ⟨f, x, s⟩ = r.judge ⟨f, x, s'⟩ := by
  refine Rule.judge_congr rfl rfl fun l _ => ?_
  cases l.operand with
  | signal id => exact h.derived?_eq id
  | field path => rfl
  | flags group path => rfl

/-! ## Sessions -/

/-- Two ticks are the same, apart from what stands in. -/
structure Tick.SameButDefaults (t t' : Tick) : Prop where
  actor : t.actor = t'.actor
  snapshot : t.snapshot.SameButDefaults t'.snapshot
  batches : t.batches = t'.batches
  diagnostics : t.diagnostics = t'.diagnostics

namespace Session

/-- The same call. Rules that are loaded may come of different loadings. -/
inductive Event.Same : Event → Event → Prop where
  | ingest (actor : String) (f : Frame) (x : Externals) :
    Same (.ingest actor f x) (.ingest actor f x)
  | reload {rules rules' : RuleSet} (h : rules.rules = rules'.rules) :
    Same (.reload rules) (.reload rules')
  | resize (window : Int) : Same (.resize window) (.resize window)

/-- Two sessions have catalogs that are the same when bare, and know the same. -/
structure Twin (s s' : Session) : Prop where
  catalog : s.deriver.catalog.bare = s'.deriver.catalog.bare
  combiners : s.deriver.combiners = s'.deriver.combiners
  window : s.window = s'.window
  actors : s.actors = s'.actors
  trigger : Trigger.Twin s.trigger s'.trigger

namespace Twin

variable {s s' : Session}

theorem stateOf_eq (h : Twin s s') (actor : String) : s.stateOf actor = s'.stateOf actor := by
  unfold stateOf actor?
  rw [h.actors]

theorem sceneOf_eq (h : Twin s s') (actor : String) (f : Frame) (x : Externals) :
    s.sceneOf actor f x = s'.sceneOf actor f x := by
  unfold sceneOf
  rw [h.stateOf_eq, h.window]

theorem derivedOf (h : Twin s s') (actor : String) (f : Frame) (x : Externals) :
    (s.derivedOf actor f x).snapshot.SameButDefaults (s'.derivedOf actor f x).snapshot ∧
    (s.derivedOf actor f x).diagnostics = (s'.derivedOf actor f x).diagnostics := by
  unfold Session.derivedOf
  rw [← h.sceneOf_eq]
  exact derive_congr h.catalog h.combiners (s.sceneOf actor f x)

theorem processedOf (h : Twin s s') (actor : String) (f : Frame) (x : Externals) :
    (s.processedOf actor f x).1 = (s'.processedOf actor f x).1 ∧
    Trigger.Twin (s.processedOf actor f x).2 (s'.processedOf actor f x).2 :=
  h.trigger.process actor (Rule.judge_of_sameButDefaults (h.derivedOf actor f x).1 f x)

/-- A frame brings the same tick, apart from what stands in. -/
theorem ingest (h : Twin s s') (actor : String) (f : Frame) (x : Externals) :
    (s.ingest actor f x).1.SameButDefaults (s'.ingest actor f x).1 ∧
    Twin (s.ingest actor f x).2 (s'.ingest actor f x).2 := by
  obtain ⟨hsnapshot, hdiagnostics⟩ := h.derivedOf actor f x
  obtain ⟨hbatches, htrigger⟩ := h.processedOf actor f x
  have hstate : s.stateAfter actor f x = s'.stateAfter actor f x := by
    unfold stateAfter
    rw [h.sceneOf_eq, h.stateOf_eq, hbatches]
  rw [ingest_eq, ingest_eq]
  constructor
  · exact ⟨rfl, hsnapshot, hbatches, hdiagnostics⟩
  · refine ⟨h.catalog, h.combiners, h.window, ?_, htrigger⟩
    show Table.insert actor _ _ = Table.insert actor _ _
    rw [hstate, h.actors]

/-- The same call keeps sessions twins. -/
theorem step (h : Twin s s') {call call' : Event} (hcall : Event.Same call call') :
    List.Forall₂ Tick.SameButDefaults (s.step call).1.toList (s'.step call').1.toList ∧
    Twin (s.step call).2 (s'.step call').2 := by
  cases hcall with
  | ingest actor f x =>
    obtain ⟨htick, hnext⟩ := h.ingest actor f x
    exact ⟨.cons htick .nil, hnext⟩
  | reload hrules =>
    exact ⟨.nil, h.catalog, h.combiners, h.window, h.actors, .start hrules⟩
  | resize window => exact ⟨.nil, h.catalog, h.combiners, rfl, h.actors, h.trigger⟩

/-- A run brings the same ticks, apart from what stands in, and keeps sessions twins. -/
theorem run {calls calls' : List Event} (hcalls : List.Forall₂ Event.Same calls calls')
    (h : Twin s s') :
    List.Forall₂ Tick.SameButDefaults (Session.run calls s).1 (Session.run calls' s').1 ∧
    Twin (Session.run calls s).2 (Session.run calls' s').2 := by
  induction hcalls generalizing s s' with
  | nil => exact ⟨.nil, h⟩
  | cons hcall _ ih =>
    obtain ⟨hticks, hnext⟩ := h.step hcall
    obtain ⟨hrest, hlast⟩ := ih hnext
    rw [run_cons, run_cons]
    exact ⟨List.rel_append hticks hrest, hlast⟩

end Twin

/-- **Defaults, descriptions and labels do not reach the rules.** Take two catalogs that are
otherwise the same. Every rules document brings the same rules, or the same fault, against both. With
any combiners, both lack the same one or neither lacks any, and then every run of two sessions with
the same rules and window brings the same ticks, apart from the values that stand in, and ends with
the same flags and times of every actor and with the same memory. -/
theorem defaults_unseen {c c' : Catalog} (h : c.bare = c'.bare) :
    (∀ text, Rule.listOfText c text = Rule.listOfText c' text) ∧
    ∀ cs : Combiners,
      (∃ m, Deriver.build c cs = .error m ∧ Deriver.build c' cs = .error m) ∨
      (Deriver.build c cs = .ok ⟨c, cs⟩ ∧ Deriver.build c' cs = .ok ⟨c', cs⟩ ∧
        ∀ (rules rules' : RuleSet) (window : Int) (calls calls' : List Event),
          rules.rules = rules'.rules → List.Forall₂ Event.Same calls calls' →
          let (ticks, last) := Session.run calls (start ⟨c, cs⟩ rules window)
          let (ticks', last') := Session.run calls' (start ⟨c', cs⟩ rules' window)
          List.Forall₂ Tick.SameButDefaults ticks ticks' ∧
          last.actors = last'.actors ∧
          last.trigger.memory.verdicts = last'.trigger.memory.verdicts) := by
  refine ⟨fun text => ?_, fun cs => ?_⟩
  · rw [← Rule.listOfText_bare c, h, Rule.listOfText_bare c']
  · refine (Deriver.build_congr h cs).imp_right fun hbuild => ⟨hbuild.1, hbuild.2, ?_⟩
    intro rules rules' window calls calls' hrules hcalls
    have hstart : Twin (start ⟨c, cs⟩ rules window) (start ⟨c', cs⟩ rules' window) :=
      ⟨h, rfl, rfl, rfl, .start hrules⟩
    obtain ⟨hticks, hlast⟩ := hstart.run hcalls
    exact ⟨hticks, hlast.actors, hlast.trigger.verdicts⟩

/-- A catalog that is `levels` with another default, with labels and with a description. -/
def labelledLevels : Catalog :=
  { levels with
    signals := [{
      id := "level"
      type := .enum
      values := [⟨.number .zero, some "empty"⟩, ⟨.number .one, some "full"⟩]
      default := some (.number .zero)
      description := some "how full the tank is"
      expr := .path "level" none }] }

/-- A rule that holds while the level is one, which is the default of `levels`. -/
def whileFull : Rule where
  id := "while-full"
  title := "While full"
  filter := ⟨none, []⟩
  all := some [.leaf ⟨.signal "level", .compare .eq (.number .one)⟩]
  any := none
  onRise := [.setFlag "FULL"]
  onFall := []

theorem defaults_unseen_levels :
    let calls (generation : Nat) : List Event := [
      .ingest "a" Scene.blank.frame .absent,
      .reload ⟨generation, [whileFull]⟩,
      .ingest "a" { Scene.blank.frame with data := .object [("level", .number .one)] } .absent]
    let ticks := (Session.run (calls 2) (start ⟨levels, .absent⟩ ⟨1, [whileFull]⟩ 0)).1
    let ticks' := (Session.run (calls 4) (start ⟨labelledLevels, .absent⟩ ⟨3, [whileFull]⟩ 0)).1
    let value? (t : Tick) : Option Number := (t.snapshot.value? "level").bind Json.number?
    levels.bare = labelledLevels.bare ∧ List.Forall₂ Tick.SameButDefaults ticks ticks' ∧
      ticks.map (·.batches.length) = [0, 1] ∧ ticks.map value? ≠ ticks'.map value? := by
  intro calls ticks ticks' value?
  have hbare : levels.bare = labelledLevels.bare := rfl
  have hcalls : List.Forall₂ Event.Same (calls 2) (calls 4) :=
    .cons (.ingest _ _ _) (.cons (.reload rfl) (.cons (.ingest _ _ _) .nil))
  refine ⟨hbare, ?_, by decide +kernel, by decide +kernel⟩
  rcases (defaults_unseen hbare).2 .absent with ⟨m, hmissing, -⟩ | ⟨-, -, hruns⟩
  · cases build_levels.symm.trans hmissing
  · exact (hruns ⟨1, [whileFull]⟩ ⟨3, [whileFull]⟩ 0 (calls 2) (calls 4) rfl hcalls).1

end Session

end Telltale
