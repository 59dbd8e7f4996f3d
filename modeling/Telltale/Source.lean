import Telltale.Datum

/-!
# Sources

The streams on which frames arrive, and the external documents of the same names.
-/

namespace Telltale

/-- The stream of a frame: polled status, discrete events, persisted state, or the snapshot of an
external service. -/
inductive Source where
  | dashboard
  | journal
  | state
  | capi
  deriving DecidableEq

namespace Source

/-- Every source, in the order of declaration. -/
def all : List Source := [.dashboard, .journal, .state, .capi]

/-- The name of a source. -/
def name : Source → String
  | .dashboard => "dashboard"
  | .journal => "journal"
  | .state => "state"
  | .capi => "capi"

/-- The source of a name. -/
def ofName? (s : String) : Option Source := all.find? (·.name == s)

/-- What is said of a name that no source has. -/
def unknownMessage (s : String) : String := "unknown source '" ++ s ++ "'"

/-- The source of a datum. -/
def ofDatum? (ahead : Bool) : Datum → Option Source := Datum.choice? ofName? ahead

/-- A source's name belongs to no other source. -/
theorem ofName?_name (s : Source) : ofName? s.name = some s := by cases s <;> rfl

end Source

end Telltale
