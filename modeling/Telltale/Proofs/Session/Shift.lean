import Telltale.Proofs.Recency.Shift
import Telltale.Proofs.Rule.Evidence
import Telltale.Proofs.Session.Windows

/-!
# Only the differences of times matter

A run whose frames all come in later by one span, or earlier, answers as it did. The session ends
with the same flags and the same memory, and all times that it keeps are moved by that span.

* `Session.Event.shift`, `Session.shift` — a call, and a session, whose times are all moved.
* `Session.Whole` — no session keeps a leap second as long as none comes in.
* `Session.step_shift`, `Session.run_shift` — a moved session answers moved calls as it was, and is
  the moved session afterwards.
* `Session.times_relative` — so it is on every run, whatever order the times are in.
-/

namespace Telltale

/-! ## Frames and actors -/

/-- A frame whose time is moved. -/
def Frame.shift (d : Int) (f : Frame) : Frame := { f with timestamp := f.timestamp.shift d }

theorem Scene.sameReads_shift (f : Frame) (x : Externals) (r r' : Recency) (now now' : Timestamp)
    (d : Int) : SameReads ⟨f.shift d, x, r', now'⟩ ⟨f, x, r, now⟩ :=
  ⟨fun _ => rfl, rfl⟩

/-- Rules do not look at the time of a frame. -/
theorem Rule.judge_shift (r : Rule) (f : Frame) (x : Externals) (snapshot : Snapshot) (d : Int) :
    r.judge ⟨f.shift d, x, snapshot⟩ = r.judge ⟨f, x, snapshot⟩ := by
  refine Rule.judge_congr rfl rfl fun l _ => ?_
  cases l.operand <;> rfl

/-- What is kept of an actor, with all its times moved. -/
def ActorState.shift (d : Int) (state : ActorState) : ActorState :=
  ⟨state.recency.shift d, state.flags⟩

namespace Session

/-! ## Sessions -/

/-- A call whose time, if it has one, is moved. -/
def Event.shift (d : Int) : Event → Event
  | .ingest actor f x => .ingest actor (f.shift d) x
  | .reload rules => .reload rules
  | .resize window => .resize window

/-- The time of a call, if it has one, is no leap second. -/
def Event.IsWhole (call : Event) : Prop :=
  ∀ actor f x, call = .ingest actor f x → f.timestamp.isLeap = false

/-- A session whose times are all moved. -/
def shift (d : Int) (s : Session) : Session := { s with actors := s.actors.mapValues (·.shift d) }

/-- No time that is kept of an actor is a leap second. -/
def Whole (s : Session) : Prop := ∀ actor, (s.stateOf actor).recency.Whole

variable {s : Session} {f : Frame}

theorem actor?_shift (d : Int) (s : Session) (actor : String) :
    (s.shift d).actor? actor = (s.actor? actor).map (·.shift d) :=
  Table.get?_mapValues _ s.actors actor

theorem stateOf_shift (d : Int) (s : Session) (actor : String) :
    (s.shift d).stateOf actor = (s.stateOf actor).shift d := by
  unfold stateOf
  rw [actor?_shift]
  cases s.actor? actor <;> rfl

/-! ## One frame -/

theorem whole_recencyAt {r : Recency} (h : r.Whole) (window : Int) (hf : f.timestamp.isLeap = false) :
    (recencyAt r window f).Whole := by
  have hpruned : (r.prune f.timestamp window).Whole := h.prune f.timestamp window
  unfold recencyAt Recency.record?
  cases f.eventName? with
  | none => exact hpruned
  | some event => exact hpruned.record event hf

theorem recencyAt_shift {r : Recency} (h : r.Whole) (window : Int)
    (hf : f.timestamp.isLeap = false) (d : Int) :
    recencyAt (r.shift d) window (f.shift d) = (recencyAt r window f).shift d := by
  have hpruned := Recency.prune_shift h hf window d
  show ((r.shift d).prune (f.timestamp.shift d) window).record? f.eventName? _ = _
  unfold recencyAt Recency.record?
  rw [hpruned]
  cases f.eventName? with
  | none => rfl
  | some event => exact Recency.record_shift (h.prune f.timestamp window) event hf d

theorem derivedOf_shift (h : s.Whole) (actor : String) (hf : f.timestamp.isLeap = false)
    (x : Externals) (d : Int) :
    (s.shift d).derivedOf actor (f.shift d) x = s.derivedOf actor f x := by
  have hwhole : (s.sceneOf actor f x).recency.Whole := whole_recencyAt (h actor) s.window hf
  unfold derivedOf sceneOf
  rw [stateOf_shift]
  apply Deriver.derive_of_sameReads (Scene.sameReads_shift ..)
  intro signal _ name bound _
  show (recencyAt ((s.stateOf actor).recency.shift d) s.window (f.shift d)).within name bound _ = _
  rw [recencyAt_shift (h actor) s.window hf]
  exact Recency.within_shift hwhole hf name bound d

theorem processedOf_shift (h : s.Whole) (actor : String) (hf : f.timestamp.isLeap = false)
    (x : Externals) (d : Int) :
    (s.shift d).processedOf actor (f.shift d) x = s.processedOf actor f x := by
  unfold processedOf
  rw [derivedOf_shift h actor hf]
  apply Trigger.processEach_congr
  intro r _
  exact r.judge_shift f x _ d

theorem stateAfter_shift (h : s.Whole) (actor : String) (hf : f.timestamp.isLeap = false)
    (x : Externals) (d : Int) :
    (s.shift d).stateAfter actor (f.shift d) x = (s.stateAfter actor f x).shift d := by
  unfold stateAfter
  rw [processedOf_shift h actor hf, stateOf_shift]
  show ActorState.mk (recencyAt ((s.shift d).stateOf actor).recency s.window (f.shift d)) _ = _
  rw [stateOf_shift]
  exact congrArg (ActorState.mk · _) (recencyAt_shift (h actor) s.window hf d)

/-- A moved session answers a moved frame as it was, and is the moved session afterwards. -/
theorem ingest_shift (h : s.Whole) (actor : String) (hf : f.timestamp.isLeap = false)
    (x : Externals) (d : Int) :
    (s.shift d).ingest actor (f.shift d) x =
      ((s.ingest actor f x).1, (s.ingest actor f x).2.shift d) := by
  have htick : (s.shift d).tickOf actor (f.shift d) x = s.tickOf actor f x := by
    unfold tickOf
    rw [derivedOf_shift h actor hf, processedOf_shift h actor hf]
  rw [ingest_eq (s.shift d), htick, processedOf_shift h actor hf, stateAfter_shift h actor hf,
    ingest_eq s]
  show (_, Session.mk s.deriver _ s.window (Table.insert actor _ (s.actors.mapValues _))) = _
  rw [Table.insert_mapValues]
  rfl

/-! ## Runs -/

theorem whole_start (dv : Deriver) (rules : RuleSet) (window : Int) : (start dv rules window).Whole :=
  fun _ => Recency.whole_empty

theorem Whole.step (h : s.Whole) {call : Event} (hcall : call.IsWhole) : (s.step call).2.Whole := by
  cases call with
  | ingest actor f x =>
    intro other
    show ((s.ingest actor f x).2.stateOf other).recency.Whole
    rw [stateOf, actor?_ingest]
    split
    · exact whole_recencyAt (h actor) s.window (hcall actor f x rfl)
    · exact h other
  | reload rules => exact h
  | resize window => exact h

theorem step_shift (h : s.Whole) {call : Event} (hcall : call.IsWhole) (d : Int) :
    (s.shift d).step (call.shift d) = ((s.step call).1, (s.step call).2.shift d) := by
  cases call with
  | ingest actor f x =>
    show (some ((s.shift d).ingest actor (f.shift d) x).1, _) = _
    rw [ingest_shift h actor (hcall actor f x rfl)]
    rfl
  | reload rules => rfl
  | resize window => rfl

/-- A run of moved calls, from a moved session on. -/
theorem run_shift {calls : List Event} (h : s.Whole) (hcalls : ∀ call ∈ calls, call.IsWhole)
    (d : Int) :
    run (calls.map (Event.shift d)) (s.shift d) = ((run calls s).1, (run calls s).2.shift d) := by
  induction calls generalizing s with
  | nil => rfl
  | cons call rest ih =>
    obtain ⟨hcall, hrest⟩ := List.forall_mem_cons.mp hcalls
    rw [List.map_cons, run_cons, step_shift h hcall, ih (h.step hcall) hrest, run_cons]

/-- **Only the differences of times matter.** Let no frame of a run come in at a leap second, and
move the times of all frames by one span. Then all ticks stay as they were, and so do the flags of
each actor and all that is remembered, and the time at which an event of an actor was last seen is
moved by exactly that span. -/
theorem times_relative (dv : Deriver) (rules : RuleSet) (window : Int) (calls : List Event)
    (hcalls : ∀ actor f x, .ingest actor f x ∈ calls → f.timestamp.isLeap = false) (d : Int) :
    let s := run calls (start dv rules window)
    let s' := run (calls.map (Event.shift d)) (start dv rules window)
    s'.1 = s.1 ∧ (∀ actor, s'.2.flags? actor = s.2.flags? actor) ∧ s'.2.trigger = s.2.trigger ∧
    ∀ actor, s'.2.recency? actor = (s.2.recency? actor).map (·.shift d) := by
  intro s s'
  have hwhole : ∀ call ∈ calls, call.IsWhole := by
    rintro call hmem actor f x rfl
    exact hcalls actor f x hmem
  have hrun : s' = (s.1, s.2.shift d) := run_shift (whole_start dv rules window) hwhole d
  rw [hrun]
  refine ⟨rfl, fun actor => ?_, rfl, fun actor => ?_⟩
  · unfold flags?
    rw [actor?_shift]
    cases s.2.actor? actor <;> rfl
  · unfold recency?
    rw [actor?_shift]
    cases s.2.actor? actor <;> rfl

end Session

/-- A frame of the journal at a number of milliseconds. -/
def noteAtMillis (millis : Int) (event : String) : Frame :=
  ⟨.journal, some event, .ofInstant (millis * 1000000), .object []⟩

/-- The signal is true for three seconds and false a millisecond later, and it is false on a frame
from before the event. The times are not in order, and move to before 1970. -/
theorem Session.times_relative_pier :
    let dv : Deriver := ⟨pier, .absent⟩
    let calls : List Event := [.ingest "a" (noteAtMillis 5250 "Docked") .absent,
      .ingest "a" (noteAtMillis 4900 "Docked") .absent, .reload ⟨2, [.docking]⟩,
      .ingest "a" (noteAtMillis 8250 "Music") .absent,
      .ingest "a" (noteAtMillis 8251 "Music") .absent]
    let d : Int := -7654321098
    let s := run calls (start dv ⟨1, [.docking]⟩ (windowOfSeconds 10))
    let s' := run (calls.map (Event.shift d)) (start dv ⟨1, [.docking]⟩ (windowOfSeconds 10))
    (∀ actor f x, .ingest actor f x ∈ calls → f.timestamp.isLeap = false) ∧
    s.1.map (·.batches.length) = [1, 1, 1, 1] ∧
    (s.2.recency? "a").bind (·.lastSeen? "Docked") = some ⟨5, 250000000⟩ ∧
    (s'.2.recency? "a").bind (·.lastSeen? "Docked") = some ⟨-3, 595678902⟩ ∧
    s'.1 = s.1 ∧ (∀ actor, s'.2.flags? actor = s.2.flags? actor) ∧ s'.2.trigger = s.2.trigger ∧
    ∀ actor, s'.2.recency? actor = (s.2.recency? actor).map (·.shift d) := by
  intro dv calls d s s'
  have hcalls : ∀ actor f x, .ingest actor f x ∈ calls → f.timestamp.isLeap = false := by
    intro actor f x hmem
    simp only [calls, List.mem_cons, Event.ingest.injEq, List.not_mem_nil, or_false,
      reduceCtorEq, false_or] at hmem
    rcases hmem with ⟨-, rfl, -⟩ | ⟨-, rfl, -⟩ | ⟨-, rfl, -⟩ | ⟨-, rfl, -⟩ <;> decide
  have hmoved := times_relative dv ⟨1, [.docking]⟩ (windowOfSeconds 10) calls hcalls d
  exact ⟨hcalls, by decide +kernel, by decide +kernel, by decide +kernel, hmoved⟩

end Telltale
