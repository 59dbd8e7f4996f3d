import Telltale.Catalog.Report
import Telltale.Snapshot

/-!
# Reports on snapshots

What is shown of the values that were derived on a scene, as text and as a value.
-/

namespace Telltale

open Text (Grid lines)

/-- The row of a signal's entry: the value, and its label or that it is the default. -/
def Signal.entryRow (s : Signal) (e : Entry) : List String :=
  let note := if e.isFallback then "(default)" else (s.labelFor? e.value).getD ""
  [s.id, e.value.cell, note]

namespace Derived

/-- The rows of the signals of a catalog. -/
def rows (d : Derived) (c : Catalog) : List (List String) :=
  c.signals.filterMap fun s => (d.snapshot.entry? s.id).map s.entryRow

/-- The values, one a row, and the diagnostics under them. -/
def text (d : Derived) (c : Catalog) : String :=
  (Grid.mk ["SIGNAL", "VALUE", ""] (d.rows c)).text ++
    lines (d.diagnostics.map ("warning: " ++ ·.message))

/-- The value of a snapshot with its diagnostics, if there are any. -/
def toJson (d : Derived) : Json :=
  let diagnostics :=
    if d.diagnostics.isEmpty then []
    else [("diagnostics", Json.array (d.diagnostics.map Diagnostic.toJson))]
  .object (("snapshot", d.snapshot.toJson) :: diagnostics)

end Derived

end Telltale
