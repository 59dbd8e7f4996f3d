import Telltale.Json.Text
import Telltale.Rule
import Telltale.Text.Grid

/-!
# Reports on rules

What is shown of a list of rules, as text and as a value.
-/

namespace Telltale

open Text (Grid lines)

/-- What a filter lets through: a source, events, or both. -/
def Filter.text (f : Filter) : String :=
  let events := "|".intercalate f.events
  match f.source with
  | some s => if f.events.isEmpty then s.name else s.name ++ ":" ++ events
  | none => if f.events.isEmpty then "-" else events

namespace Rule

/-- The row of a rule among others. -/
def row (r : Rule) : List String :=
  [r.id, r.title, r.filter.text, toString r.onRise.length, toString r.onFall.length]

/-- What is told of a rule in short. -/
def summaryJson (r : Rule) : Json :=
  let source := match r.filter.source with
    | some s => .string s.name
    | none => .null
  .object [("id", .string r.id), ("title", .string r.title), ("source", source),
    ("events", .array (r.filter.events.map .string)), ("then", Json.ofNat r.onRise.length),
    ("else", Json.ofNat r.onFall.length)]

/-- The text about valid rules. -/
def verdictText (rules : List Rule) : String :=
  lines ["Rules are valid: " ++ toString rules.length ++ " rules."]

/-- The value about valid rules. -/
def verdictJson (rules : List Rule) : Json :=
  Json.ofPairs [("valid", .bool true), ("rules", Json.ofNat rules.length)]

/-- The rules, one a row. -/
def listing (rules : List Rule) : String :=
  if rules.isEmpty then lines ["No rules."]
  else (Grid.mk ["ID", "TITLE", "FILTER", "THEN", "ELSE"] (rules.map row)).text

/-- The value of the rules in short. -/
def summariesJson (rules : List Rule) : Json := .array (rules.map summaryJson)

end Rule

end Telltale
