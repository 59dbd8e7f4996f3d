import Telltale.Trigger

/-!
# Sessions

A session brings the frames of several actors through derivation and rules. For every actor it keeps
when events were last seen and which flags the rules have raised.

* `Session.ingest` takes one frame in: it prunes and records events, derives the signals, judges the
  rules and applies the flags.
* `Session.reload` changes the rules; flags stay raised until some new rule lowers them.
-/

namespace Telltale

/-- What a session keeps of one actor. -/
structure ActorState where
  recency : Recency
  flags : Names

/-- An actor of which nothing is known. -/
def ActorState.fresh : ActorState := ⟨.empty, []⟩

/-- What comes of one frame. -/
structure Tick where
  actor : String
  snapshot : Snapshot
  batches : List Batch
  diagnostics : List Diagnostic

/-- A session. The window is the time, in nanoseconds, after which an event is forgotten. -/
structure Session where
  deriver : Deriver
  trigger : Trigger
  window : Int
  actors : Table ActorState

namespace Session

/-- The nanoseconds of a millisecond. -/
def nanosPerMilli : Int := 1000000

/-- The seconds after which an event is forgotten if nothing else is said. -/
def defaultWindowSeconds : Nat := 10

/-- The window of a number of seconds. -/
def windowOfSeconds (seconds : Nat) : Int := seconds * Timestamp.nanosPerSecond

/-- A session without actors. -/
def start (d : Deriver) (rules : RuleSet) (window : Int) : Session :=
  ⟨d, .start rules, window, []⟩

/-- What an action does to the raised flags. -/
def applyAction (flags : Names) : Action → Names
  | .setFlag token => Names.insert token flags
  | .clearFlag token => Names.erase token flags
  | .log _ | .emit .. => flags

/-- What batches do to the raised flags, in order. -/
def applyBatches (flags : Names) (batches : List Batch) : Names :=
  (batches.flatMap (·.actions)).foldl applyAction flags

/-- What is known of an actor. -/
def actor? (s : Session) (actor : String) : Option ActorState := Table.get? s.actors actor

/-- When events were last seen, once a frame has come in. -/
def recencyAt (r : Recency) (window : Int) (f : Frame) : Recency :=
  (r.prune f.timestamp window).record? f.eventName? f.timestamp

/-- Takes in a frame of an actor, with the external documents beside it. -/
def ingest (s : Session) (actor : String) (f : Frame) (x : Externals) : Tick × Session :=
  let state := (s.actor? actor).getD .fresh
  let recency := recencyAt state.recency s.window f
  let derived := s.deriver.derive ⟨f, x, recency, f.timestamp⟩
  let (batches, trigger) := s.trigger.process actor ⟨f, x, derived.snapshot⟩
  let state := ⟨recency, applyBatches state.flags batches⟩
  (⟨actor, derived.snapshot, batches, derived.diagnostics⟩,
    { s with trigger, actors := Table.insert actor state s.actors })

/-- Changes the rules. -/
def reload (s : Session) (rules : RuleSet) : Session :=
  { s with trigger := s.trigger.reload rules }

/-- The flags raised for an actor, if anything is known of it. -/
def flags? (s : Session) (actor : String) : Option Names := (s.actor? actor).map (·.flags)

/-- When events of an actor were last seen, if anything is known of it. -/
def recency? (s : Session) (actor : String) : Option Recency := (s.actor? actor).map (·.recency)

/-- The actors, in order. -/
def actorNames (s : Session) : List String := Table.names s.actors

end Session

end Telltale
