import Telltale.Proofs.Recency.Bounds
import Telltale.Proofs.Session.Times
import Telltale.Proofs.Session.Windows

/-!
# Checks for the event of the frame at hand

A frame is looked at with its own event recorded, and so a check for that event is passed whatever
its bound is. The one thing that gets in the way is a later time: an index keeps the latest time of an
event, so on a frame that comes in late the check sees an event that is still to come.

* `Session.IsAhead` — the index of an actor still holds a later time of an event when a frame comes
  in.
* `Session.lastSeen?_sceneOf_of_not_ahead`, `Session.lastSeen?_sceneOf_of_isAhead` — what a frame sees
  of its own event: itself, or the later time.
* `Recency.isWithin_iff_of_neg` — an event that is still to come passes for a present one if it is
  less than a microsecond ahead.
* `Session.recent_on_own_frame` — so a check for the event of the frame at hand is passed unless a
  later one came in before. `Session.late_frame_fails` is a frame where that is so.
-/

namespace Telltale

-- the powers of the core library, whatever else is in scope
attribute [local instance (2000)] instPowNat

/-! ## The order of moments -/

namespace Timestamp

theorem since_self (t : Timestamp) : t.since t = 0 := by
  simp [since, leapCorrection]

theorem isBefore_asymm {a b : Timestamp} (h : a.isBefore b = true) : b.isBefore a = false := by
  simp only [isBefore, Bool.or_eq_true, Bool.and_eq_true, decide_eq_true_eq, beq_iff_eq] at h
  simp only [isBefore, Bool.or_eq_false_iff, Bool.and_eq_false_iff, decide_eq_false_iff_not,
    beq_eq_false_iff_ne]
  omega

/-- Two moments neither of which comes before the other are one. -/
theorem eq_of_not_isBefore {a b : Timestamp} (h : a.isBefore b = false)
    (h' : b.isBefore a = false) : a = b := by
  obtain ⟨s, n⟩ := a
  obtain ⟨s', n'⟩ := b
  simp only [isBefore, Bool.or_eq_false_iff, Bool.and_eq_false_iff, decide_eq_false_iff_not,
    beq_eq_false_iff_ne] at h h'
  simp only [mk.injEq]
  omega

theorem latest_eq_left {a b : Timestamp} (h : b.isBefore a = true) : a.latest b = a := by
  rw [latest, isBefore_asymm h]
  rfl

theorem latest_eq_right {a b : Timestamp} (h : b.isBefore a = false) : a.latest b = b := by
  unfold latest
  split
  · rfl
  · next hnot => exact eq_of_not_isBefore (Bool.eq_false_iff.mpr hnot) h

end Timestamp

/-! ## Ages of present and later events -/

namespace Recency

/-- An age of less than a microsecond counts as none, and is within every bound. -/
theorem isWithin_of_tdiv_eq_zero {age : Int} (hage : age.tdiv 1000 = 0) {bound : Extended}
    (hbound : Expr.isBound bound = true) : isWithin age bound = true := by
  have hseconds : secondsOf? age = some .posZero := by
    unfold secondsOf? micros?
    rw [hage]
    decide +kernel
  rw [isWithin_iff]
  refine ⟨_, hseconds, Int.le_refl 0, ?_⟩
  cases bound with
  | finite x => exact hbound
  | infinity | nan => cases hbound

theorem isWithin_iff_of_neg {age : Int} (hage : age < 0) {bound : Extended}
    (hbound : Expr.isBound bound = true) : isWithin age bound = true ↔ -1000 < age := by
  obtain ⟨ahead, rfl⟩ : ∃ ahead, age = -ahead := ⟨-age, by omega⟩
  have htdiv : (-ahead).tdiv 1000 = -(ahead / 1000) := by
    rw [Int.neg_tdiv, Int.tdiv_eq_ediv_of_nonneg (by omega)]
  constructor
  · intro hwithin
    obtain ⟨s, hs, hpos, -⟩ := isWithin_iff.mp hwithin
    obtain ⟨hus, -, hs⟩ := secondsOf?_eq_some.mp hs
    by_contra hfar
    have hneg : (-ahead).tdiv 1000 < 0 := by omega
    have := seconds_neg hneg hus hs
    omega
  · intro hnear
    exact isWithin_of_tdiv_eq_zero (by omega) hbound

/-- What an index has seen of an event was recorded. -/
theorem record_mem_of_lastSeen? {changes : List Change} {event : String} {time : Timestamp}
    (h : (after changes).lastSeen? event = some time) : .record event time ∈ changes := by
  induction changes using List.reverseRecOn generalizing time with
  | nil => cases h
  | append_singleton changes c ih =>
    rw [after_append_singleton] at h
    cases c with
    | record name now =>
      rw [apply, lastSeen?_record] at h
      split at h
      · next hname =>
        subst hname
        cases h
        cases hlast : (after changes).lastSeen? event with
        | none =>
          rw [Option.getD_none, Timestamp.latest_self]
          exact List.mem_append_right _ List.mem_cons_self
        | some last =>
          rw [Option.getD_some]
          rcases Timestamp.latest_eq_or last now with heq | heq
          · rw [heq]
            exact List.mem_append_left _ (ih hlast)
          · rw [heq]
            exact List.mem_append_right _ List.mem_cons_self
      · exact List.mem_append_left _ (ih h)
    | prune now window =>
      rw [apply, lastSeen?_prune (ordered_after changes), Option.filter_eq_some_iff] at h
      exact List.mem_append_left _ (ih h.1)
    | clear => cases h

end Recency

namespace Session

/-! ## Later times -/

/-- The index of an actor holds a time of an event after that of a frame of the actor, and the prune
at the frame leaves it there. -/
def IsAhead (s : Session) (actor : String) (f : Frame) (event : String) (time : Timestamp) : Prop :=
  ((s.stateOf actor).recency.prune f.timestamp s.window).lastSeen? event = some time ∧
    f.timestamp.isBefore time = true

theorem frame_of_mem_changesOf {actor event : String} {time : Timestamp} {window : Int}
    {calls : List Event} (h : .record event time ∈ changesOf actor window calls) :
    ∃ f x, .ingest actor f x ∈ calls ∧ f.eventName? = some event ∧ f.timestamp = time := by
  induction calls generalizing window with
  | nil => cases h
  | cons call rest ih =>
    have hrest {window : Int} (h : .record event time ∈ changesOf actor window rest) :
        ∃ f x, .ingest actor f x ∈ call :: rest ∧ f.eventName? = some event ∧ f.timestamp = time := by
      obtain ⟨f, x, hmem, hf⟩ := ih h
      exact ⟨f, x, List.mem_cons_of_mem _ hmem, hf⟩
    cases call with
    | ingest other f x =>
      rcases List.mem_append.mp h with hown | hlater
      · split at hown
        · next heq =>
          subst heq
          rcases List.mem_cons.mp hown with hprune | hrecord
          · cases hprune
          · obtain ⟨name, hname, heq⟩ := Option.map_eq_some_iff.mp (Option.mem_toList.mp hrecord)
            cases heq
            exact ⟨f, x, List.mem_cons_self, hname, rfl⟩
        · cases hown
      · exact hrest hlater
    | reload rules => exact hrest h
    | resize window' => exact hrest h

/-- A later time that the index holds was recorded on an earlier frame. -/
theorem IsAhead.exists_frame {d : Deriver} {rules : RuleSet} {window : Int} {calls : List Event}
    {actor event : String} {f : Frame} {time : Timestamp}
    (h : (run calls (start d rules window)).2.IsAhead actor f event time) :
    ∃ f' x', .ingest actor f' x' ∈ calls ∧ f'.eventName? = some event ∧ f'.timestamp = time := by
  obtain ⟨hseen, -⟩ := h
  have hindex : ((run calls (start d rules window)).2.stateOf actor).recency =
      Recency.after (changesOf actor window calls) := recency_run calls (start d rules window) actor
  rw [hindex, Recency.lastSeen?_prune (Recency.ordered_after _), Option.filter_eq_some_iff] at hseen
  exact frame_of_mem_changesOf (Recency.record_mem_of_lastSeen? hseen.1)

variable {s : Session} {actor event : String} {f : Frame} {x : Externals}

theorem lastSeen?_sceneOf (hevent : f.eventName? = some event) :
    (s.sceneOf actor f x).recency.lastSeen? event =
      some (((((s.stateOf actor).recency.prune f.timestamp s.window).lastSeen? event).getD
        f.timestamp).latest f.timestamp) := by
  unfold sceneOf recencyAt Recency.record?
  rw [hevent]
  exact (Recency.lastSeen?_record _ _ _ _).trans (if_pos rfl)

/-- Without a later time, a frame sees its own event at its own time. -/
theorem lastSeen?_sceneOf_of_not_ahead (hevent : f.eventName? = some event)
    (h : ∀ time, ¬ s.IsAhead actor f event time) :
    (s.sceneOf actor f x).recency.lastSeen? event = some f.timestamp := by
  rw [lastSeen?_sceneOf hevent]
  cases hheld : ((s.stateOf actor).recency.prune f.timestamp s.window).lastSeen? event with
  | none => rw [Option.getD_none, Timestamp.latest_self]
  | some time =>
    have hbefore : f.timestamp.isBefore time = false :=
      Bool.eq_false_iff.mpr fun hbefore => h time ⟨hheld, hbefore⟩
    rw [Option.getD_some, Timestamp.latest_eq_right hbefore]

theorem lastSeen?_sceneOf_of_isAhead (hevent : f.eventName? = some event) {time : Timestamp}
    (h : s.IsAhead actor f event time) :
    (s.sceneOf actor f x).recency.lastSeen? event = some time := by
  rw [lastSeen?_sceneOf hevent, h.1, Option.getD_some, Timestamp.latest_eq_left h.2]

/-! ## The check -/

theorem eval_recent_sceneOf (v : Vocabulary) (cs : Combiners) {time : Timestamp}
    (hseen : (s.sceneOf actor f x).recency.lastSeen? event = some time) (bound : Extended) :
    Expr.eval v cs (s.sceneOf actor f x) (.recent event bound) =
      some (.bool (Recency.isWithin (f.timestamp.since time) bound)) := by
  rw [Expr.eval, Recency.within, Recency.age?, hseen]
  rfl

/-- **A frame carries a recent event, unless a later one came in before.** On every run, in whatever
order the times of an actor's frames are, a check for the event of a frame is passed on the scene that
the frame is derived on, with every bound that a catalog may have, unless the index of the actor still
holds a later time of the event. Such a time is that of an earlier frame of the actor with the event.
The check then goes by that time, and apart from leap seconds it is passed only if the time is less
than a microsecond ahead. -/
theorem recent_on_own_frame (d : Deriver) (rules : RuleSet) (window : Int) (calls : List Event)
    (actor : String) (f : Frame) (x : Externals) {event : String}
    (hevent : f.eventName? = some event) {bound : Extended} (hbound : Expr.isBound bound = true)
    (v : Vocabulary) (cs : Combiners) :
    let s := (run calls (start d rules window)).2
    let value := Expr.eval v cs (s.sceneOf actor f x) (.recent event bound)
    (s.ingest actor f x).1.snapshot = (s.deriver.derive (s.sceneOf actor f x)).snapshot ∧
    ((∀ time, ¬ s.IsAhead actor f event time) → value = some (.bool true)) ∧
    ∀ time, s.IsAhead actor f event time →
      (∃ f' x', .ingest actor f' x' ∈ calls ∧ f'.eventName? = some event ∧ f'.timestamp = time) ∧
      value = some (.bool (Recency.isWithin (f.timestamp.since time) bound)) ∧
      (f.timestamp.isLeap = false → time.isLeap = false →
        (value = some (.bool true) ↔ time.instant < f.timestamp.instant + 1000)) := by
  intro s value
  refine ⟨rfl, fun hnone => ?_, fun time hahead => ?_⟩
  · have hvalue : value = some (.bool (Recency.isWithin (f.timestamp.since f.timestamp) bound)) :=
      eval_recent_sceneOf v cs (lastSeen?_sceneOf_of_not_ahead hevent hnone) bound
    rwa [Timestamp.since_self, Recency.isWithin_of_tdiv_eq_zero (Int.zero_tdiv _) hbound] at hvalue
  · have hvalue : value = some (.bool (Recency.isWithin (f.timestamp.since time) bound)) :=
      eval_recent_sceneOf v cs (lastSeen?_sceneOf_of_isAhead hevent hahead) bound
    refine ⟨hahead.exists_frame, hvalue, fun hleap hleap' => ?_⟩
    have hbefore := (Timestamp.isBefore_iff hleap hleap').mp hahead.2
    have hsince := Timestamp.since_of_whole hleap hleap'
    have hneg : f.timestamp.since time < 0 := by omega
    rw [hvalue, Option.some.injEq, Json.bool.injEq, Recency.isWithin_iff_of_neg hneg hbound]
    omega

/-- The index holds an earlier time of the event on the first frame, and a later one on the other. -/
theorem recent_on_own_frame_docked :
    let d : Deriver := ⟨pier, .absent⟩
    let bound : Extended := .finite (.ofInt 3)
    let calls : List Event := [.ingest "a" (noteAt 1 "Docked") .absent,
      .ingest "b" (noteAt 9 "Docked") .absent]
    let s := (run calls (start d ⟨1, []⟩ (windowOfSeconds 10))).2
    (noteAt 5 "Docked").eventName? = some "Docked" ∧ Expr.isBound bound = true ∧
    (∀ time, ¬ s.IsAhead "a" (noteAt 5 "Docked") "Docked" time) ∧
    Expr.eval ⟨[], []⟩ .absent (s.sceneOf "a" (noteAt 5 "Docked") .absent) (.recent "Docked" bound) =
      some (.bool true) ∧
    s.IsAhead "b" (noteAt 5 "Docked") "Docked" ⟨9, 0⟩ ∧
    Expr.eval ⟨[], []⟩ .absent (s.sceneOf "b" (noteAt 5 "Docked") .absent) (.recent "Docked" bound) ≠
      some (.bool true) := by
  intro d bound calls s
  have hevent : (noteAt 5 "Docked").eventName? = some "Docked" := rfl
  have hbound : Expr.isBound bound = true := by decide +kernel
  have hearlier : ((s.stateOf "a").recency.prune ⟨5, 0⟩ s.window).lastSeen? "Docked" =
      some ⟨1, 0⟩ := by decide +kernel
  have hnone : ∀ time, ¬ s.IsAhead "a" (noteAt 5 "Docked") "Docked" time := by
    rintro time ⟨hseen, hbefore⟩
    cases hearlier.symm.trans hseen
    cases hbefore
  have hlater : ((s.stateOf "b").recency.prune ⟨5, 0⟩ s.window).lastSeen? "Docked" =
      some ⟨9, 0⟩ := by decide +kernel
  have hahead : s.IsAhead "b" (noteAt 5 "Docked") "Docked" ⟨9, 0⟩ := ⟨hlater, rfl⟩
  have hat (actor : String) := recent_on_own_frame d ⟨1, []⟩ (windowOfSeconds 10) calls actor
    (noteAt 5 "Docked") .absent hevent hbound ⟨[], []⟩ .absent
  obtain ⟨-, -, hiff⟩ := (hat "b").2.2 _ hahead
  refine ⟨hevent, hbound, hnone, (hat "a").2.1 hnone, hahead, ?_⟩
  rw [Ne, hiff rfl rfl]
  decide

/-- An event at two seconds is not recent on its own frame, since one at five seconds came in
before. -/
theorem late_frame_fails :
    let s := (run [.ingest "a" (noteAt 5 "Docked") .absent]
      (start ⟨pier, .absent⟩ ⟨1, []⟩ (windowOfSeconds 10))).2
    (noteAt 2 "Docked").eventName? = some "Docked" ∧
    Expr.isBound (.finite (.ofInt 3)) = true ∧
    Expr.eval pier.vocabulary .absent (s.sceneOf "a" (noteAt 2 "Docked") .absent)
      (.recent "Docked" (.finite (.ofInt 3))) = some (.bool false) := by
  intro s
  have hlater : (s.sceneOf "a" (noteAt 2 "Docked") .absent).recency.lastSeen? "Docked" =
      some ⟨5, 0⟩ := by decide +kernel
  have hfails : Recency.isWithin ((noteAt 2 "Docked").timestamp.since ⟨5, 0⟩) (.finite (.ofInt 3)) =
      false := by decide +kernel
  refine ⟨rfl, by decide +kernel, ?_⟩
  rw [eval_recent_sceneOf _ _ hlater, hfails]

end Session

end Telltale
