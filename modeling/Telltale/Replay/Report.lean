import Telltale.Json.Text
import Telltale.Replay
import Telltale.Text.Grid

/-!
# Reports on replays

What is shown of a replay, as text and as a value.

* `Firing.text` is what is shown while the log is read, and `Replay.summary` what follows at its
  end.
* `Replay.toJson` is the value of a whole replay.
-/

namespace Telltale

open Text (Grid lines padEnd)

/-- An action in short. -/
def Action.brief : Action → String
  | .setFlag token => "+" ++ token
  | .clearFlag token => "-" ++ token
  | .log message => "log \"" ++ message ++ "\""
  | .emit name _ => "emit " ++ name

namespace Firing

/-- The line of text about a batch. -/
def text (f : Firing) : String :=
  f.time.clock ++ "  " ++ padEnd 12 f.batch.actor ++ " " ++ f.batch.rule ++ " " ++
    f.batch.edge.name ++ ": " ++ ", ".intercalate (f.batch.actions.map Action.brief)

/-- The value of a batch, with the line and the time. -/
def toJson (f : Firing) : Json :=
  .object ([("line", Json.ofNat f.line), ("timestamp", .string f.time.offsetText)] ++
    (f.batch.toJson.object?).getD [])

end Firing

namespace Replay

/-- The lines of text about all batches. -/
def firingLines (r : Replay) : String := lines (r.firings.map Firing.text)

/-- An actor with its flags. -/
def flagRow (actor : String) (flags : Names) : List String :=
  [actor, if flags.isEmpty then "-" else ", ".intercalate flags]

/-- The text that ends a replay: how much there was, and the flags that are raised. -/
def summary (r : Replay) : String :=
  let rows := r.flags.map fun (actor, flags) => flagRow actor flags
  "\nReplayed " ++ toString r.frames ++ " frames, " ++ toString r.firings.length ++
    " action batches.\n" ++
    if rows.isEmpty then "" else "\n" ++ (Grid.mk ["ACTOR", "FLAGS"] rows).text

/-- The value of a replay. -/
def toJson (r : Replay) : Json :=
  .object [("frames", Json.ofNat r.frames), ("batches", .array (r.firings.map Firing.toJson)),
    ("flags", .object (r.flags.map fun (actor, flags) => (actor, .array (flags.map .string))))]

end Replay

end Telltale
