import Telltale.FileSystem
import Telltale.Frame.Document
import Telltale.Session

/-!
# Replays

A log is a file with one frame a line, which is brought through a session line by line. The external
documents that a line gives stay in force for its actor until another line replaces them.

* `Log.ofLines` takes the lines of a log up to the first one that is malformed.
* `Replay.step` takes in a line, and `Replay.run` all lines of a log.
-/

namespace Telltale

/-! ### Logs -/

/-- What is wrong with a malformed line: it is no frame, or it cannot even be read. -/
inductive LineFault where
  | notFrame
  | unreadable (cause : FileFault)

/-- The lines of a log with their numbers. The first malformed line, which ends the log, stands
apart with its number. -/
structure Log where
  entries : List (Nat × LogLine)
  malformed : Option (Nat × LineFault)

/-- The log of lines that are counted from a number. Blank lines are passed over. -/
def Log.ofLines (number : Nat) : List (Except FileFault String) → Log
  | [] => ⟨[], none⟩
  | .error cause :: _ => ⟨[], some (number, .unreadable cause)⟩
  | .ok line :: rest =>
    if Text.isBlankText line then ofLines (number + 1) rest
    else
      match LogLine.ofText? line with
      | none => ⟨[], some (number, .notFrame)⟩
      | some entry =>
        let log := ofLines (number + 1) rest
        ⟨(number, entry) :: log.entries, log.malformed⟩

/-! ### Replays -/

/-- A batch with the line that brought it and the time of its frame. -/
structure Firing where
  line : Nat
  time : Timestamp
  batch : Batch

/-- A session into which a log is replayed, the external documents of each actor, the number of
frames taken in, and what they brought. -/
structure Replay where
  session : Session
  externals : Table Externals
  frames : Nat
  firings : List Firing

/-- The documents with those of a later line in their place. -/
def Externals.updated (x later : Externals) : Externals :=
  ⟨later.state.or x.state, later.capi.or x.capi⟩

namespace Replay

/-- A replay of nothing yet. -/
def start (s : Session) : Replay := ⟨s, [], 0, []⟩

/-- The documents of an actor after a line. -/
def externalsAt (r : Replay) (actor : String) (entry : LogLine) : Externals :=
  ((Table.get? r.externals actor).getD .absent).updated entry.externals

/-- Takes in a line. One that names no actor belongs to the default one. -/
def step (defaultActor : String) (r : Replay) (line : Nat × LogLine) : Replay :=
  let (number, entry) := line
  let actor := entry.actor.getD defaultActor
  let x := r.externalsAt actor entry
  let (tick, session) := r.session.ingest actor entry.frame x
  ⟨session, Table.insert actor x r.externals, r.frames + 1,
    r.firings ++ tick.batches.map fun b => ⟨number, entry.frame.timestamp, b⟩⟩

/-- Takes in all lines of a log. -/
def run (defaultActor : String) (r : Replay) (log : Log) : Replay :=
  log.entries.foldl (step defaultActor) r

/-- The flags raised for each actor. -/
def flags (r : Replay) : List (String × Names) :=
  r.session.actorNames.map fun actor => (actor, (r.session.flags? actor).getD [])

end Replay

end Telltale
