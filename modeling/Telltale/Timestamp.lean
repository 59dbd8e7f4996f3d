/-!
# Timestamps

A moment in universal time, to the nanosecond. A leap second is written as the sixtieth second of a
minute; it is kept as the second before it with a billion more nanoseconds, so that the order of
moments is the order of the pairs.

* `Timestamp.since` is the time from one moment to another, in nanoseconds.
* `Timestamp.instant` counts nanoseconds from 1970, where leap seconds are left aside;
  `Timestamp.since_of_whole` says that `since` is the difference of instants there.
-/

namespace Telltale

/-- A moment: the seconds since the first one of 1970, and the nanoseconds since then, a billion or
more of them in a leap second. -/
structure Timestamp where
  seconds : Int
  nanos : Nat
  deriving DecidableEq

namespace Timestamp

/-- The nanoseconds of a second. -/
def nanosPerSecond : Nat := 1000000000

/-- The seconds of a day. -/
def secondsPerDay : Nat := 86400

/-- Whether the moment lies in a leap second. -/
def isLeap (t : Timestamp) : Bool := nanosPerSecond ≤ t.nanos

/-- Whether one moment comes before another. -/
def isBefore (a b : Timestamp) : Bool :=
  a.seconds < b.seconds || (a.seconds == b.seconds && a.nanos < b.nanos)

/-- The later of two moments. -/
def latest (a b : Timestamp) : Timestamp := if a.isBefore b then b else a

/-- The seconds since the day began. -/
def timeOfDay (t : Timestamp) : Int := t.seconds % secondsPerDay

/-- The second that has to be added because one of two moments lies in a leap second: the moments
are compared by their times of day. -/
def leapCorrection (now past : Timestamp) : Int :=
  if past.timeOfDay < now.timeOfDay ∧ past.isLeap then 1
  else if now.timeOfDay < past.timeOfDay ∧ now.isLeap then -1
  else 0

/-- The nanoseconds from one moment to a later one, negative if it is an earlier one. -/
def since (now past : Timestamp) : Int :=
  (now.seconds - past.seconds + leapCorrection now past) * nanosPerSecond +
    ((now.nanos : Int) - past.nanos)

/-- The nanoseconds from the start of 1970, where leap seconds are left aside. -/
def instant (t : Timestamp) : Int := t.seconds * nanosPerSecond + t.nanos

/-- The moment of a number of nanoseconds from the start of 1970. -/
def ofInstant (n : Int) : Timestamp := ⟨n / nanosPerSecond, (n % nanosPerSecond).toNat⟩

/-- Without leap seconds, the time between two moments is the difference of their instants. -/
theorem since_of_whole {now past : Timestamp} (h : now.isLeap = false)
    (h' : past.isLeap = false) : since now past = now.instant - past.instant := by
  unfold since leapCorrection instant
  rw [h, h']
  simp only [Bool.false_eq_true, and_false, if_false]
  simp only [nanosPerSecond]
  omega

end Timestamp

end Telltale
