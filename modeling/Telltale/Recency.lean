import Telltale.Double
import Telltale.Table
import Telltale.Timestamp

/-!
# Recency

When each event was last seen. Old entries are pruned by whoever brings in the frames.

* `Recency.record` keeps the later of two times, `Recency.prune` drops what is older than a window.
* `Recency.within` is whether an event was seen no longer ago than a number of seconds; ages are
  taken in whole microseconds.
-/

namespace Telltale

-- the powers of the core library, whatever else is in scope
attribute [local instance (2000)] instPowNat

/-- The time at which each event was last seen. -/
structure Recency where
  seen : Table Timestamp

namespace Recency

/-- No event seen. -/
def empty : Recency := ⟨[]⟩

/-- The time at which an event was last seen. -/
def lastSeen? (r : Recency) (event : String) : Option Timestamp := Table.get? r.seen event

/-- The number of events seen. -/
def size (r : Recency) : Nat := r.seen.length

/-- Takes down that an event was seen. An earlier time does not replace a later one. -/
def record (r : Recency) (event : String) (time : Timestamp) : Recency :=
  ⟨Table.update event time (·.latest time) r.seen⟩

/-- Takes down an event, if there is one. -/
def record? (r : Recency) (event : Option String) (time : Timestamp) : Recency :=
  match event with
  | some name => r.record name time
  | none => r

/-- Drops the events that were last seen longer ago than the window, in nanoseconds. -/
def prune (r : Recency) (now : Timestamp) (window : Int) : Recency :=
  ⟨r.seen.filter fun e => now.since e.2 ≤ window⟩

/-- The nanoseconds since an event was last seen. -/
def age? (r : Recency) (event : String) (now : Timestamp) : Option Int :=
  (r.lastSeen? event).map now.since

/-! ### Ages in other units -/

/-- The integer, if it fits in 64 bits with a sign. -/
def narrow? (n : Int) : Option Int :=
  if -(2 ^ (63 : Nat)) ≤ n ∧ n < 2 ^ (63 : Nat) then some n else none

/-- The whole milliseconds of an age. -/
def millis (age : Int) : Int := age.tdiv 1000000

/-- The whole microseconds of an age, if they fit in 64 bits. -/
def micros? (age : Int) : Option Int := narrow? (age.tdiv 1000)

/-- A million. -/
def million : Double := Double.ofInt 1000000

/-- An age in seconds, from its whole microseconds. -/
def secondsOf? (age : Int) : Option Double :=
  (micros? age).bind fun us => (Double.ofInt us).div? million

/-- Whether an age is not negative and no longer than a number of seconds. -/
def isWithin (age : Int) (bound : Extended) : Bool :=
  (secondsOf? age).any fun s => 0 ≤ s.units && (Extended.finite s).atMost bound

/-- Whether an event was seen no longer ago than a number of seconds. -/
def within (r : Recency) (event : String) (bound : Extended) (now : Timestamp) : Bool :=
  (r.age? event now).any (isWithin · bound)

end Recency

end Telltale
