import Telltale.Path
import Telltale.Source
import Telltale.Timestamp.Text

/-!
# Frames

A frame is one update from one source. Beside it stand the external documents, which every frame
sees.

* `Frame.eventName?` is the event that a frame carries.
* `lookup` finds the value at a path: the first segment selects a document if it is the name of a
  source, and otherwise the whole path leads into the frame's own data.
-/

namespace Telltale

/-- One update from one source. -/
structure Frame where
  source : Source
  event : Option String
  timestamp : Timestamp
  data : Json

/-- The documents beside a frame: the persisted state, and the snapshot of the external service. -/
structure Externals where
  state : Option Json
  capi : Option Json

/-- No external documents. -/
def Externals.absent : Externals := ⟨none, none⟩

/-- The external document of a source. -/
def Externals.document? (x : Externals) : Source → Option Json
  | .state => x.state
  | .capi => x.capi
  | .dashboard | .journal => none

namespace Frame

/-- The event of a frame of the journal: the one that is set, or else the text of the data's field
`event`. -/
def eventName? (f : Frame) : Option String :=
  match f.source with
  | .journal => f.event.or ((f.data.field? "event").bind Json.string?)
  | _ => none

/-- The value that a frame is written as. -/
def toJson (f : Frame) : Json :=
  let event := match f.event with
    | some name => [("event", Json.string name)]
    | none => []
  .object (("source", .string f.source.name) :: event ++
    [("timestamp", .string f.timestamp.text), ("data", f.data)])

end Frame

/-- The document of a source: the frame's own data, if the frame is from it, or an external one. -/
def document? (f : Frame) (x : Externals) (s : Source) : Option Json :=
  if s = f.source then some f.data else x.document? s

/-- The value that the segments of a path lead to. -/
def lookupSegments (f : Frame) (x : Externals) : List String → Option Json
  | [] => Path.walk f.data []
  | head :: rest =>
    match Source.ofName? head with
    | some s => (document? f x s).bind (Path.walk · rest)
    | none => Path.walk f.data (head :: rest)

/-- The value at a path, unless it is null. -/
def lookup (f : Frame) (x : Externals) (path : String) : Option Json :=
  lookupSegments f x (Path.split path)

end Telltale
