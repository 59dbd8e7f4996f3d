import Telltale.Command.Fault
import Telltale.Json.Text

/-!
# Runs that print

A run prints as it goes along and can fail at any point; what it has printed by then stays printed.

* `Run.print` and `Run.present` print.
* `Run.attempt`, `Run.demand` and `Run.need` go on with a result or fail.
-/

namespace Telltale

/-- A run that prints, and that can fail after it has printed something. -/
abbrev Run (m : Type → Type) := ExceptT Fault (StateT String m)

namespace Run

variable {m : Type → Type} [Monad m]

/-- Prints a text. -/
def print (s : String) : Run m Unit := modify (· ++ s)

/-- Prints a value, or a text where no value is asked for. -/
def present (asJson : Bool) (value : Json) (text : String) : Run m Unit :=
  print (if asJson then value.pretty ++ "\n" else text)

/-- Fails as something else fails. -/
def attempt (fault : ε → Fault) (x : ExceptT ε m α) : Run m α := do
  match ← (x.run : m (Except ε α)) with
  | .ok a => return a
  | .error e => throw (fault e)

/-- A result, or a failure. -/
def demand (fault : ε → Fault) (x : Except ε α) : Run m α :=
  MonadExcept.ofExcept (x.mapError fault)

/-- Fails where there is nothing. -/
def need (fault : Fault) : Option α → Run m α
  | some a => pure a
  | none => throw fault

end Run

end Telltale
