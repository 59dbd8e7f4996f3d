import Telltale.Proofs.Recency.Sight

/-!
# Times that are all moved

An index compares times with each other and takes the difference of two of them, and does nothing
else with them. So all times may be moved by one span: every change of a moved index is the moved
change, and every check comes out as it did.

* `Timestamp.shift` — a time that is moved by a span. Differences and the order stay as they are.
* `Recency.record_shift`, `Recency.prune_shift` — the changes of a moved index.
* `Recency.within_shift` — checks for recent events do not see the move.
-/

namespace Telltale

namespace Timestamp

variable {a b : Timestamp}

theorem instant_ofInstant (n : Int) : (ofInstant n).instant = n := by
  simp only [ofInstant, instant, nanosPerSecond]
  omega

theorem isLeap_ofInstant (n : Int) : (ofInstant n).isLeap = false := by
  have hnanos : (n % 1000000000).toNat < 1000000000 := by omega
  exact decide_eq_false (Nat.not_le.mpr hnanos)

/-- A time that is moved by a span, in nanoseconds. -/
def shift (d : Int) (t : Timestamp) : Timestamp := ofInstant (t.instant + d)

@[simp] theorem instant_shift (d : Int) (t : Timestamp) : (t.shift d).instant = t.instant + d :=
  instant_ofInstant _

@[simp] theorem isLeap_shift (d : Int) (t : Timestamp) : (t.shift d).isLeap = false :=
  isLeap_ofInstant _

theorem since_shift (ha : a.isLeap = false) (hb : b.isLeap = false) (d : Int) :
    (a.shift d).since (b.shift d) = a.since b := by
  rw [since_of_whole (isLeap_shift d a) (isLeap_shift d b), since_of_whole ha hb, instant_shift,
    instant_shift]
  omega

theorem isBefore_shift (ha : a.isLeap = false) (hb : b.isLeap = false) (d : Int) :
    (a.shift d).isBefore (b.shift d) = a.isBefore b := by
  have hiff : (a.shift d).isBefore (b.shift d) = true ↔ a.isBefore b = true := by
    rw [isBefore_iff (isLeap_shift d a) (isLeap_shift d b), isBefore_iff ha hb, instant_shift,
      instant_shift]
    omega
  exact Bool.eq_iff_iff.mpr hiff

theorem latest_shift (ha : a.isLeap = false) (hb : b.isLeap = false) (d : Int) :
    (a.shift d).latest (b.shift d) = (a.latest b).shift d := by
  unfold latest
  rw [isBefore_shift ha hb]
  split <;> rfl

end Timestamp

namespace Recency

variable {r : Recency}

/-- An index whose times are all moved by a span. -/
def shift (d : Int) (r : Recency) : Recency := ⟨r.seen.mapValues (·.shift d)⟩

theorem lastSeen?_shift (d : Int) (r : Recency) (event : String) :
    (r.shift d).lastSeen? event = (r.lastSeen? event).map (·.shift d) :=
  Table.get?_mapValues _ r.seen event

theorem Ordered.shift (h : r.Ordered) (d : Int) : (r.shift d).Ordered := Table.Ordered.mapValues h _

theorem record_shift (h : r.Whole) (event : String) {time : Timestamp} (htime : time.isLeap = false)
    (d : Int) : (r.shift d).record event (time.shift d) = (r.record event time).shift d := by
  have hmoved : ((r.shift d).record event (time.shift d)).Ordered :=
    (h.ordered.shift d).record event _
  refine hmoved.ext ((h.ordered.record event time).shift d) fun name => ?_
  rw [lastSeen?_record, lastSeen?_shift, lastSeen?_shift, lastSeen?_shift, lastSeen?_record]
  by_cases hname : name = event
  · rw [if_pos hname, if_pos hname, Option.map_some]
    cases hlast : r.lastSeen? event with
    | none =>
      rw [Option.map_none, Option.getD_none, Option.getD_none, Timestamp.latest_shift htime htime]
    | some last =>
      have hwhole : last.isLeap = false := h.whole event last hlast
      rw [Option.map_some, Option.getD_some, Option.getD_some,
        Timestamp.latest_shift hwhole htime]
  · rw [if_neg hname, if_neg hname]

theorem prune_shift (h : r.Whole) {now : Timestamp} (hnow : now.isLeap = false) (window d : Int) :
    (r.shift d).prune (now.shift d) window = (r.prune now window).shift d := by
  have hmoved : ((r.shift d).prune (now.shift d) window).Ordered :=
    (h.ordered.shift d).prune _ window
  refine hmoved.ext ((h.ordered.prune now window).shift d) fun name => ?_
  rw [lastSeen?_prune (h.ordered.shift d), lastSeen?_shift, lastSeen?_shift,
    lastSeen?_prune h.ordered]
  cases hlast : r.lastSeen? name with
  | none => rfl
  | some last =>
    have hwhole : last.isLeap = false := h.whole name last hlast
    rw [Option.map_some, Option.filter_some, Option.filter_some, Timestamp.since_shift hnow hwhole]
    split <;> rfl

/-- Checks for recent events do not see that all times were moved, the present one with them. -/
theorem within_shift (h : r.Whole) {now : Timestamp} (hnow : now.isLeap = false) (event : String)
    (bound : Extended) (d : Int) :
    (r.shift d).within event bound (now.shift d) = r.within event bound now := by
  unfold within age?
  rw [lastSeen?_shift]
  cases hlast : r.lastSeen? event with
  | none => rfl
  | some last =>
    have hwhole : last.isLeap = false := h.whole event last hlast
    rw [Option.map_some, Option.map_some, Option.map_some, Timestamp.since_shift hnow hwhole]

end Recency

end Telltale
