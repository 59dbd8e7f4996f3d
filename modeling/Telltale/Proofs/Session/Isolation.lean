import Telltale.Proofs.Session.Run

/-!
# Actors do not see each other

A session keeps one table of actors and one memory of verdicts for all of them. Nothing that comes
in for one actor reaches another:

* `Trigger.Alike`, `Session.Alike` — two triggers, and two sessions, do not differ in anything that
  one given actor sees.
* `Session.Alike.ingest` — a frame of that actor brings the same tick in both, which stay alike.
* `Session.Alike.ingest_other` — a frame of another actor in one of them leaves them alike.
* `Session.run_concerning` — from alike sessions, a run and what is left of it without the frames of
  other actors bring the actor the same ticks and end alike.
* `Session.actors_isolated` — the same of every session, where frames of two actors also commute.
-/

namespace Telltale

/-! ## Triggers that are alike to an actor -/

/-- Two triggers have the same rules and remember the same verdicts for an actor. -/
structure Trigger.Alike (actor : String) (t t' : Trigger) : Prop where
  ruleSet : t.ruleSet = t'.ruleSet
  current : t.Current
  current' : t'.Current
  memory : ∀ rule, t.memory.get? rule actor = t'.memory.get? rule actor

namespace Trigger.Alike

variable {actor : String} {t t' : Trigger}

theorem symm (h : Alike actor t t') : Alike actor t' t :=
  ⟨h.ruleSet.symm, h.current', h.current, fun rule => (h.memory rule).symm⟩

theorem trans {t'' : Trigger} (h : Alike actor t t') (h' : Alike actor t' t'') :
    Alike actor t t'' :=
  ⟨h.ruleSet.trans h'.ruleSet, h.current, h'.current', fun rule =>
    (h.memory rule).trans (h'.memory rule)⟩

theorem reload (t t' : Trigger) (rules : RuleSet) :
    Alike actor (t.reload rules) (t'.reload rules) :=
  ⟨rfl, current_reload t rules, current_reload t' rules, fun _ => rfl⟩

/-- A verdict for the actor brings the same batch. -/
theorem dispatch (h : Alike actor t t') (r : Rule) (v : Verdict) :
    (t.dispatch r actor v).1 = (t'.dispatch r actor v).1 ∧
    Alike actor (t.dispatch r actor v).2 (t'.dispatch r actor v).2 := by
  constructor
  · rw [dispatch_eq h.current, dispatch_eq h.current', h.memory]
    split <;> rfl
  · refine ⟨?_, h.current.dispatch r actor v, h.current'.dispatch r actor v, fun rule => ?_⟩
    · rw [ruleSet_dispatch, ruleSet_dispatch, h.ruleSet]
    · rw [get?_dispatch h.current, get?_dispatch h.current', h.memory]

theorem processEach (h : Alike actor t t') (e : Evidence) (rules : List Rule) :
    (Trigger.processEach actor e rules t).1 = (Trigger.processEach actor e rules t').1 ∧
    Alike actor (Trigger.processEach actor e rules t).2
      (Trigger.processEach actor e rules t').2 := by
  induction rules generalizing t t' with
  | nil => exact ⟨rfl, h⟩
  | cons r rest ih =>
    obtain ⟨hbatch, hnext⟩ := h.dispatch r (r.judge e)
    obtain ⟨hbatches, hlast⟩ := ih hnext
    rw [processEach_cons, processEach_cons]
    exact ⟨by rw [hbatch, hbatches], hlast⟩

/-- A frame of the actor brings the same batches. -/
theorem process (h : Alike actor t t') (e : Evidence) :
    (t.process actor e).1 = (t'.process actor e).1 ∧
    Alike actor (t.process actor e).2 (t'.process actor e).2 := by
  unfold Trigger.process
  rw [← h.ruleSet]
  exact h.processEach e t.ruleSet.rules

/-- A frame of another actor makes no difference. -/
theorem process_other (h : Alike actor t t') {other : String} (hne : actor ≠ other) (e : Evidence) :
    Alike actor (t.process other e).2 t' where
  ruleSet := (ruleSet_process t other e).trans h.ruleSet
  current := h.current.process other e
  current' := h.current'
  memory rule := (get?_processEach_other h.current hne e t.ruleSet.rules rule).trans (h.memory rule)

end Trigger.Alike

namespace Session

/-! ## Sessions that are alike to an actor -/

/-- Two sessions derive the same, and know and remember the same of an actor. -/
structure Alike (actor : String) (s s' : Session) : Prop where
  deriver : s.deriver = s'.deriver
  window : s.window = s'.window
  state : s.actor? actor = s'.actor? actor
  trigger : Trigger.Alike actor s.trigger s'.trigger

theorem Sound.alike {s : Session} (hs : s.Sound) (actor : String) : Alike actor s s :=
  ⟨rfl, rfl, rfl, rfl, hs.1, hs.1, fun _ => rfl⟩

namespace Alike

variable {actor : String} {s s' : Session}

theorem symm (h : Alike actor s s') : Alike actor s' s :=
  ⟨h.deriver.symm, h.window.symm, h.state.symm, h.trigger.symm⟩

theorem trans {s'' : Session} (h : Alike actor s s') (h' : Alike actor s' s'') :
    Alike actor s s'' :=
  ⟨h.deriver.trans h'.deriver, h.window.trans h'.window, h.state.trans h'.state,
    h.trigger.trans h'.trigger⟩

theorem stateOf_eq (h : Alike actor s s') : s.stateOf actor = s'.stateOf actor := by
  unfold stateOf
  rw [h.state]

/-- The same comes of the signals on a frame of the actor. -/
theorem derivedOf_eq (h : Alike actor s s') (f : Frame) (x : Externals) :
    s.derivedOf actor f x = s'.derivedOf actor f x := by
  unfold derivedOf sceneOf
  rw [h.deriver, h.window, h.stateOf_eq]

/-- The same comes of the rules on a frame of the actor. -/
theorem processedOf_eq (h : Alike actor s s') (f : Frame) (x : Externals) :
    (s.processedOf actor f x).1 = (s'.processedOf actor f x).1 ∧
    Trigger.Alike actor (s.processedOf actor f x).2 (s'.processedOf actor f x).2 := by
  unfold processedOf
  rw [← h.derivedOf_eq]
  exact h.trigger.process ⟨f, x, (s.derivedOf actor f x).snapshot⟩

/-- The same is known of the actor after a frame of it. -/
theorem stateAfter_eq (h : Alike actor s s') (f : Frame) (x : Externals) :
    s.stateAfter actor f x = s'.stateAfter actor f x := by
  unfold stateAfter sceneOf
  rw [(h.processedOf_eq f x).1, h.window, h.stateOf_eq]

/-- A frame of the actor brings the same tick, and the sessions stay alike. -/
theorem ingest (h : Alike actor s s') (f : Frame) (x : Externals) :
    (s.ingest actor f x).1 = (s'.ingest actor f x).1 ∧
    Alike actor (s.ingest actor f x).2 (s'.ingest actor f x).2 := by
  obtain ⟨hbatches, htrigger⟩ := h.processedOf_eq f x
  constructor
  · show s.tickOf actor f x = s'.tickOf actor f x
    unfold tickOf
    rw [h.derivedOf_eq, hbatches]
  · refine ⟨h.deriver, h.window, ?_, htrigger⟩
    rw [actor?_ingest, actor?_ingest, if_pos rfl, if_pos rfl, h.stateAfter_eq]

/-- A frame of another actor makes no difference. -/
theorem ingest_other (h : Alike actor s s') {other : String} (hne : actor ≠ other) (f : Frame)
    (x : Externals) : Alike actor (s.ingest other f x).2 s' where
  deriver := h.deriver
  window := h.window
  state := by rw [actor?_ingest, if_neg hne, h.state]
  trigger := h.trigger.process_other hne _

end Alike

/-! ## Runs without the frames of other actors -/

/-- Whether a call concerns an actor: it is no frame of another one. -/
def Event.concerns (actor : String) : Event → Bool
  | .ingest other _ _ => other == actor
  | .reload _ | .resize _ => true

/-- A call that concerns the actor brings the same tick in both, which is one of the actor. -/
theorem Alike.step {actor : String} {s s' : Session} (h : Alike actor s s') {call : Event}
    (hcall : call.concerns actor = true) :
    (s.step call).1 = (s'.step call).1 ∧ (∀ tick ∈ (s.step call).1, tick.actor = actor) ∧
    Alike actor (s.step call).2 (s'.step call).2 := by
  cases call with
  | ingest other f x =>
    obtain rfl : other = actor := by simpa [Event.concerns] using hcall
    obtain ⟨htick, hnext⟩ := h.ingest f x
    refine ⟨congrArg some htick, ?_, hnext⟩
    intro tick ht
    cases ht
    rfl
  | reload rules =>
    exact ⟨rfl, by simp [Session.step], h.deriver, h.window, h.state,
      .reload s.trigger s'.trigger rules⟩
  | resize window => exact ⟨rfl, by simp [Session.step], h.deriver, rfl, h.state, h.trigger⟩

/-- A call that does not concern the actor brings a tick of another one and makes no difference. -/
theorem Alike.step_other {actor : String} {s s' : Session} (h : Alike actor s s') {call : Event}
    (hcall : call.concerns actor = false) :
    (∀ tick ∈ (s.step call).1, tick.actor ≠ actor) ∧ Alike actor (s.step call).2 s' := by
  cases call with
  | ingest other f x =>
    have hne : other ≠ actor := by simpa [Event.concerns] using hcall
    refine ⟨?_, h.ingest_other hne.symm f x⟩
    intro tick ht
    cases ht
    exact hne
  | reload rules => cases hcall
  | resize window => cases hcall

/-- From alike sessions, a run and what is left of it without the frames of other actors bring the
actor the same ticks and end alike. -/
theorem run_concerning {actor : String} {s s' : Session} (h : Alike actor s s')
    (calls : List Event) :
    (run (calls.filter (Event.concerns actor)) s').1 =
      (run calls s).1.filter (·.actor == actor) ∧
    Alike actor (run calls s).2 (run (calls.filter (Event.concerns actor)) s').2 := by
  induction calls generalizing s s' with
  | nil => exact ⟨rfl, h⟩
  | cons call rest ih =>
    cases hcall : call.concerns actor with
    | true =>
      obtain ⟨htick, hactor, hnext⟩ := h.step hcall
      obtain ⟨hticks, hlast⟩ := ih hnext
      have hkeep : (s.step call).1.toList.filter (·.actor == actor) = (s.step call).1.toList :=
        List.filter_eq_self.mpr fun tick ht => by simpa using hactor tick (Option.mem_toList.mp ht)
      rw [List.filter_cons_of_pos hcall, run_cons, run_cons, List.filter_append, hkeep, hticks,
        htick]
      exact ⟨rfl, hlast⟩
    | false =>
      obtain ⟨hactor, hnext⟩ := h.step_other hcall
      obtain ⟨hticks, hlast⟩ := ih hnext
      have hdrop : (s.step call).1.toList.filter (·.actor == actor) = [] :=
        List.filter_eq_nil_iff.mpr fun tick ht => by
          simpa using hactor tick (Option.mem_toList.mp ht)
      rw [List.filter_cons_of_neg (by simp [hcall]), run_cons, List.filter_append, hdrop, hticks]
      exact ⟨rfl, hlast⟩

/-! ## Frames of two actors -/

/-- Two sessions are the same, up to the order in which verdicts are kept. -/
structure Same (s s' : Session) : Prop where
  deriver : s.deriver = s'.deriver
  window : s.window = s'.window
  actors : s.actors = s'.actors
  ruleSet : s.trigger.ruleSet = s'.trigger.ruleSet
  generation : s.trigger.memory.generation = s'.trigger.memory.generation
  memory : ∀ rule actor, s.trigger.memory.get? rule actor = s'.trigger.memory.get? rule actor
  verdicts : s.trigger.memory.verdicts.Perm s'.trigger.memory.verdicts

/-- Sessions that are alike to every actor are the same if they have the same table of actors. -/
theorem Same.of_alike {s s' : Session} (h : ∀ actor, Alike actor s s')
    (hactors : s.actors = s'.actors) (hs : s.Sound) (hs' : s'.Sound) : Same s s' where
  deriver := (h "").deriver
  window := (h "").window
  actors := hactors
  ruleSet := (h "").trigger.ruleSet
  generation := by rw [hs.1, hs'.1, (h "").trigger.ruleSet]
  memory rule actor := (h actor).trigger.memory rule
  verdicts := Memory.perm_of_get?_eq hs.2 hs'.2 fun rule actor => (h actor).trigger.memory rule

variable {a b : String}

/-- The tick of a frame is the same before and after a frame of another actor. -/
theorem Sound.tick_ingest_other {s : Session} (hs : s.Sound) (hab : a ≠ b) (f g : Frame)
    (x y : Externals) : ((s.ingest b g y).2.ingest a f x).1 = (s.ingest a f x).1 :=
  (((hs.alike a).ingest_other hab g y).ingest f x).1

/-- After frames of two actors in either order, the session is alike to the first of them. -/
theorem Sound.alike_ingest {s : Session} (hs : s.Sound) (hab : a ≠ b) (f g : Frame)
    (x y : Externals) :
    Alike a ((s.ingest a f x).2.ingest b g y).2 ((s.ingest b g y).2.ingest a f x).2 := by
  have hfirst : (s.ingest a f x).2.Sound := hs.step (.ingest a f x)
  have hsecond : Alike a ((s.ingest b g y).2.ingest a f x).2 (s.ingest a f x).2 :=
    (((hs.alike a).ingest_other hab g y).ingest f x).2
  exact ((hfirst.alike a).ingest_other hab g y).trans hsecond.symm

/-- After frames of two actors in either order, the session is the same. -/
theorem Sound.same_ingest {s : Session} (hs : s.Sound) (hab : a ≠ b) (f g : Frame)
    (x y : Externals) :
    Same ((s.ingest a f x).2.ingest b g y).2 ((s.ingest b g y).2.ingest a f x).2 := by
  have hafter : ((s.ingest b g y).2.stateAfter a f x) = s.stateAfter a f x :=
    ((hs.alike a).ingest_other hab g y).stateAfter_eq f x
  have hafter' : ((s.ingest a f x).2.stateAfter b g y) = s.stateAfter b g y :=
    ((hs.alike b).ingest_other hab.symm f x).stateAfter_eq g y
  refine .of_alike (fun actor => ?_) ?_ ((hs.step (.ingest a f x)).step (.ingest b g y))
    ((hs.step (.ingest b g y)).step (.ingest a f x))
  · by_cases ha : actor = a
    · subst ha
      exact hs.alike_ingest hab f g x y
    · by_cases hb : actor = b
      · subst hb
        exact (hs.alike_ingest hab.symm g f y x).symm
      -- to any other actor, neither frame made a difference
      · have h := ((hs.alike actor).ingest_other ha f x).ingest_other hb g y
        have h' := ((hs.alike actor).ingest_other hb g y).ingest_other ha f x
        exact h.trans h'.symm
  · rw [ingest_eq (s.ingest a f x).2, ingest_eq (s.ingest b g y).2, hafter, hafter', ingest_eq s a,
      ingest_eq s b]
    exact Table.insert_comm hab.symm _ _ s.actors

/-! ## Isolation -/

/-- **Actors are isolated**, in every session. Deleting the frames of all other actors from a run
leaves the ticks of an actor, its flags, the times at which its events were last seen and what every
rule remembers of it; and frames of two actors can come in in either order. -/
theorem actors_isolated (d : Deriver) (rules : RuleSet) (window : Int) (before : List Event) :
    let s := (run before (start d rules window)).2
    (∀ calls actor,
      let full := run calls s
      let alone := run (calls.filter (Event.concerns actor)) s
      alone.1 = full.1.filter (·.actor == actor) ∧
      alone.2.flags? actor = full.2.flags? actor ∧
      alone.2.recency? actor = full.2.recency? actor ∧
      ∀ rule, alone.2.trigger.memory.get? rule actor = full.2.trigger.memory.get? rule actor) ∧
    (∀ a b f x g y, a ≠ b →
      ((s.ingest b g y).2.ingest a f x).1 = (s.ingest a f x).1 ∧
      ((s.ingest a f x).2.ingest b g y).1 = (s.ingest b g y).1 ∧
      Same ((s.ingest a f x).2.ingest b g y).2 ((s.ingest b g y).2.ingest a f x).2) := by
  intro s
  have hs : s.Sound := sound_run d rules window before
  constructor
  · intro calls actor full alone
    obtain ⟨hticks, hlast⟩ := run_concerning (hs.alike actor) calls
    refine ⟨hticks, ?_, ?_, fun rule => (hlast.trigger.memory rule).symm⟩
    · unfold flags?
      rw [hlast.state]
    · unfold recency?
      rw [hlast.state]
  · intro a b f x g y hab
    exact ⟨hs.tick_ingest_other hab f g x y, hs.tick_ingest_other hab.symm g f y x,
      hs.same_ingest hab f g x y⟩

end Session

end Telltale
