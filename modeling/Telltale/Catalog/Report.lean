import Telltale.Catalog
import Telltale.Json.Text
import Telltale.Text.Grid

/-!
# Reports on catalogs

What is shown of a catalog and of one signal, as text and as a value.
-/

namespace Telltale

open Text (Grid lines padEnd)

/-- A value in a text: strings without quotes, unless they are empty. -/
def Json.cell : Json → String
  | .string s => if s == "" then "\"\"" else s
  | v => v.compact

namespace Signal

/-- A declared value with its label. -/
def valueLine (v : EnumValue) : String :=
  match v.label with
  | some label => "  " ++ padEnd 20 v.value.cell ++ " " ++ label
  | none => "  " ++ v.value.cell

/-- The lines of a text, indented. -/
def indentLines (s : String) : List String := (s.splitOn "\n").map ("  " ++ ·)

/-- All there is to say about a signal. -/
def report (s : Signal) : String :=
  let about := s.description.map ("about:   " ++ ·)
  let values := if s.type = .enum then "values:" :: s.values.map valueLine else []
  lines (["id:      " ++ s.id, "type:    " ++ s.type.name] ++ about.toList ++
    ["default: " ++ s.defaultValue.cell] ++ values ++ "derive:" :: indentLines s.expr.toJson.pretty)

/-- The row of a signal among others. -/
def row (s : Signal) : List String :=
  [s.id, s.type.name, s.expr.kind, ", ".intercalate (s.values.map fun v => v.value.cell)]

end Signal

namespace Catalog

/-- The text about a valid catalog. -/
def verdictText (c : Catalog) : String :=
  lines ["Catalog is valid: " ++ toString c.signals.length ++ " signals, " ++
    toString c.vocabulary.groups.length ++ " flag groups."]

/-- The value about a valid catalog. -/
def verdictJson (c : Catalog) : Json :=
  Json.ofPairs [("valid", .bool true), ("version", Json.ofNat c.version),
    ("signals", Json.ofNat c.signals.length),
    ("flag_groups", Json.ofNat c.vocabulary.groups.length)]

/-- The signals of a catalog, one a row. -/
def listing (c : Catalog) : String :=
  (Grid.mk ["SIGNAL", "TYPE", "DERIVE", "VALUES"] (c.signals.map Signal.row)).text

/-- The value of the signals of a catalog. -/
def signalsJson (c : Catalog) : Json := .array (c.signals.map Signal.toJson)

/-- The value of the names of the events that a catalog refers to. -/
def eventsJson (c : Catalog) : Json := .array (c.eventNames.map .string)

end Catalog

end Telltale
