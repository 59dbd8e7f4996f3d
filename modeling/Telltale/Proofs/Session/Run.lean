import Telltale.Proofs.Trigger.Memory
import Telltale.Session

/-!
# Runs of a session

A session is used by three calls: a frame is taken in, the rules are replaced, or the window is
changed. A run is a row of calls, and answers with the ticks of its frames.

* `Session.ingest_eq` — what taking in a frame does, by the scene that it is derived on.
* `Session.actor?_ingest` — what is known of actors afterwards.
* `Session.sound_run` — the memory of a session belongs to its rules and holds no verdict twice. It
  is the invariant of every run.
-/

namespace Telltale.Session

/-! ## One frame -/

/-- What is known of an actor, from the first frame on. -/
def stateOf (s : Session) (actor : String) : ActorState := (s.actor? actor).getD .fresh

/-- The scene that a frame of an actor is derived on. -/
def sceneOf (s : Session) (actor : String) (f : Frame) (x : Externals) : Scene :=
  ⟨f, x, recencyAt (s.stateOf actor).recency s.window f, f.timestamp⟩

/-- What comes of the signals on a frame of an actor. -/
def derivedOf (s : Session) (actor : String) (f : Frame) (x : Externals) : Derived :=
  s.deriver.derive (s.sceneOf actor f x)

/-- The batches of a frame of an actor, and the trigger after them. -/
def processedOf (s : Session) (actor : String) (f : Frame) (x : Externals) : List Batch × Trigger :=
  s.trigger.process actor ⟨f, x, (s.derivedOf actor f x).snapshot⟩

/-- The tick of a frame of an actor. -/
def tickOf (s : Session) (actor : String) (f : Frame) (x : Externals) : Tick :=
  ⟨actor, (s.derivedOf actor f x).snapshot, (s.processedOf actor f x).1,
    (s.derivedOf actor f x).diagnostics⟩

/-- What is known of an actor after a frame of it. -/
def stateAfter (s : Session) (actor : String) (f : Frame) (x : Externals) : ActorState :=
  ⟨(s.sceneOf actor f x).recency,
    applyBatches (s.stateOf actor).flags (s.processedOf actor f x).1⟩

/-- Taking in a frame: the tick, and the session with a new trigger and a new state of the actor. -/
theorem ingest_eq (s : Session) (actor : String) (f : Frame) (x : Externals) :
    s.ingest actor f x =
      (s.tickOf actor f x,
        ⟨s.deriver, (s.processedOf actor f x).2, s.window,
          Table.insert actor (s.stateAfter actor f x) s.actors⟩) := rfl

/-- What is known of actors once a frame was taken in. -/
theorem actor?_ingest (s : Session) (actor : String) (f : Frame) (x : Externals) (other : String) :
    (s.ingest actor f x).2.actor? other =
      if other = actor then some (s.stateAfter actor f x) else s.actor? other :=
  Table.get?_insert s.actors actor _ other

/-! ## Calls and runs -/

/-- A call of a session. -/
inductive Event where
  | ingest (actor : String) (frame : Frame) (externals : Externals)
  | reload (rules : RuleSet)
  | resize (window : Int)

/-- What comes of a call: the tick, if a frame was taken in, and the session after it. -/
def step (s : Session) : Event → Option Tick × Session
  | .ingest actor f x => (some (s.ingest actor f x).1, (s.ingest actor f x).2)
  | .reload rules => (none, s.reload rules)
  | .resize window => (none, { s with window })

/-- The ticks of calls in a row, and the session after them. -/
def run : List Event → Session → List Tick × Session
  | [], s => ([], s)
  | call :: rest, s =>
    ((s.step call).1.toList ++ (run rest (s.step call).2).1, (run rest (s.step call).2).2)

@[simp] theorem run_nil (s : Session) : run [] s = ([], s) := rfl

theorem run_cons (call : Event) (rest : List Event) (s : Session) :
    run (call :: rest) s =
      ((s.step call).1.toList ++ (run rest (s.step call).2).1, (run rest (s.step call).2).2) := rfl

/-- What the calls of a run keep holds after it. -/
theorem run_induction_of_mem {P : Session → Prop} {calls : List Event}
    (hstep : ∀ s, ∀ call ∈ calls, P s → P (s.step call).2) {s : Session} (hs : P s) :
    P (run calls s).2 := by
  induction calls generalizing s with
  | nil => exact hs
  | cons call rest ih =>
    exact ih (fun s call hcall => hstep s call (List.mem_cons_of_mem _ hcall))
      (hstep s call List.mem_cons_self hs)

/-- What every call keeps holds after every run. -/
theorem run_induction {P : Session → Prop} (hstep : ∀ s call, P s → P (s.step call).2)
    (calls : List Event) {s : Session} (hs : P s) : P (run calls s).2 :=
  run_induction_of_mem (fun s call _ => hstep s call) hs

/-! ## The memory on a run -/

/-- The memory of a session belongs to its rules and holds no verdict twice. -/
def Sound (s : Session) : Prop := s.trigger.Current ∧ s.trigger.memory.Distinct

theorem sound_start (d : Deriver) (rules : RuleSet) (window : Int) : (start d rules window).Sound :=
  ⟨Trigger.current_start rules, .nil⟩

theorem Sound.step {s : Session} (hs : s.Sound) (call : Event) : (s.step call).2.Sound := by
  cases call with
  | ingest actor f x => exact ⟨hs.1.process actor _, hs.1.distinct_processEach hs.2 actor _ _⟩
  | reload rules => exact ⟨Trigger.current_reload s.trigger rules, .nil⟩
  | resize window => exact hs

/-- **The invariant of every run.** -/
theorem sound_run (d : Deriver) (rules : RuleSet) (window : Int) (calls : List Event) :
    (run calls (start d rules window)).2.Sound :=
  run_induction (fun _ call hs => hs.step call) calls (sound_start d rules window)

end Telltale.Session
