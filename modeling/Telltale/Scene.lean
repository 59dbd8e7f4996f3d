import Telltale.Frame
import Telltale.Recency

/-!
# Scenes

All that an expression can read at one moment: a frame, the external documents beside it, and the
recency of events at a reference time.
-/

namespace Telltale

/-- What there is to read while a frame is looked at. -/
structure Scene where
  frame : Frame
  externals : Externals
  recency : Recency
  now : Timestamp

namespace Scene

/-- The value at a path. -/
def lookup (s : Scene) (path : String) : Option Json := Telltale.lookup s.frame s.externals path

/-- The word of flags at a path. -/
def flagWord? (s : Scene) (path : String) : Option (BitVec 64) :=
  (s.lookup path).bind Json.flagWord?

end Scene

end Telltale
