import Telltale.Config
import Telltale.Json.Text
import Telltale.Text.Grid

/-!
# Reports on configurations

What is shown of the concerns about a configuration, as text and as a value.
-/

namespace Telltale.Config

/-- The value of a concern. -/
def Concern.toJson (c : Concern) : Json :=
  .object [("level", .string c.weight.name), ("message", .string c.message)]

/-- The concerns, one a line. -/
def concernLines (cs : List Concern) : String :=
  if cs.isEmpty then Text.lines ["Config is valid. No warnings."]
  else Text.lines (cs.map fun c => "[" ++ c.weight.name ++ "] " ++ c.message)

/-- The value of the concerns. -/
def concernsJson (cs : List Concern) : Json :=
  .object [("warnings", .array (cs.map Concern.toJson))]

/-- Whether no concern is an error. -/
def isSound (cs : List Concern) : Bool := cs.all (·.weight ≠ .error)

end Telltale.Config
