import Telltale.Json.Document
import Telltale.Scene

/-!
# Reading frames

Frames and external documents are records of which unknown fields are passed over.

* `LogLine.ofText?` reads a line of a log: a frame, perhaps with an actor, and what is new of the
  external documents.
* `FrameFile.ofText?` reads a file with one frame, which may lack a timestamp, the external
  documents and the events seen before.
-/

namespace Telltale

/-- The timestamp of a datum. -/
def Timestamp.ofDatum? (d : Datum) : Option Timestamp := d.string?.bind ofText?

/-- The frame of a datum. -/
def Frame.ofDatum? (d : Datum) : Option Frame := do
  let r ← d.record? ["source", "event", "timestamp", "data"] false
  let source ← r.field? "source" (Source.ofDatum? false)
  let event ← r.optional? "event" Datum.string?
  let timestamp ← r.field? "timestamp" Timestamp.ofDatum?
  let data ← r.fieldOr? "data" .null Datum.toJson?
  some ⟨source, event, timestamp, data⟩

/-- The external documents of a datum. -/
def Externals.ofDatum? (d : Datum) : Option Externals := do
  let r ← d.record? ["state", "capi"] false
  let state ← r.optional? "state" Datum.toJson?
  let capi ← r.optional? "capi" Datum.toJson?
  some ⟨state, capi⟩

/-! ### Lines of logs -/

/-- A line of a log. -/
structure LogLine where
  actor : Option String
  frame : Frame
  externals : Externals

namespace LogLine

/-- The frame of a line of which every part can be read. -/
def frameOf? (r : Record) : Option Frame := do
  let source ← r.field? "source" (Source.ofDatum? true)
  let event ← r.optional? "event" Datum.string?
  let timestamp ← r.field? "timestamp" Timestamp.ofDatum?
  let data ← r.fieldOr? "data" .null Datum.toJson?
  some ⟨source, event, timestamp, data⟩

/-- The line of a datum, which has to be a mapping. -/
def ofDatum? (d : Datum) : Option LogLine :=
  match d with
  | .mapping entries => do
    if !d.isReadable then none
    let r ← Datum.fields?
      ["actor", "state", "capi", "source", "event", "timestamp", "data"] false entries
    let actor ← r.optional? "actor" Datum.string?
    let state ← r.optional? "state" Datum.toJson?
    let capi ← r.optional? "capi" Datum.toJson?
    let frame ← frameOf? r
    some ⟨actor, frame, ⟨state, capi⟩⟩
  | _ => none

/-- The line of a text. -/
def ofText? (s : String) : Option LogLine := (Datum.ofJsonText? s).bind ofDatum?

end LogLine

/-! ### Files with a frame -/

/-- A frame with what it is to be read against. -/
structure FrameFile where
  source : Source
  event : Option String
  timestamp : Option Timestamp
  data : Json
  externals : Externals
  recent : Table Timestamp

namespace FrameFile

/-- The file of a datum. -/
def ofDatum? (d : Datum) : Option FrameFile := do
  let r ← d.record? ["source", "event", "timestamp", "data", "state", "capi", "recent"] false
  let source ← r.field? "source" (Source.ofDatum? false)
  let event ← r.optional? "event" Datum.string?
  let timestamp ← r.optional? "timestamp" Timestamp.ofDatum?
  let data ← r.fieldOr? "data" .null Datum.toJson?
  let state ← r.optional? "state" Datum.toJson?
  let capi ← r.optional? "capi" Datum.toJson?
  let recent ← r.fieldOr? "recent" [] (Datum.table? Timestamp.ofDatum?)
  some ⟨source, event, timestamp, data, ⟨state, capi⟩, recent⟩

/-- The file of a text. -/
def ofText? (s : String) : Option FrameFile := (Datum.ofJsonText? s).bind ofDatum?

/-- The frame of a file, which is as old as it says or else of the given time. -/
def frame (f : FrameFile) (now : Timestamp) : Frame :=
  ⟨f.source, f.event, f.timestamp.getD now, f.data⟩

/-- The scene that a file gives at a time: its frame counts among the events seen. -/
def scene (f : FrameFile) (now : Timestamp) : Scene :=
  let frame := f.frame now
  let before := f.recent.foldl (fun r (event, time) => r.record event time) Recency.empty
  ⟨frame, f.externals, before.record? frame.eventName? frame.timestamp, now⟩

end FrameFile

end Telltale
