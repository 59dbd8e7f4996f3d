import Telltale.Proofs.Double.Rounding
import Telltale.Proofs.Recency.History

/-!
# What a check for a recent event sees of an index

A prune compares whole nanoseconds, and a check for a recent event compares doubles that come of
whole microseconds. Still a check whose bound is below a number of seconds sees nothing of what is
older than that, and so two indexes that differ in nothing else are alike to it.

* `Recency.isWithin_eq_false` — an age over a number of seconds is not within a bound below it.
* `Recency.Alike` — two indexes agree on all that is not older than a span.
* `Recency.Alike.prune`, `Recency.Alike.record`, `Recency.Alike.later` — they stay so when either is
  pruned by a window no shorter than the span, when both take down an event, and as time goes on.
* `Recency.Alike.within_eq` — they answer alike for bounds below the span.
-/

namespace Telltale

-- the powers of the core library, whatever else is in scope
attribute [local instance (2000)] instPowNat

/-! ## Bounds -/

/-- Whether a bound is less than a whole number. -/
def Extended.isBelow (n : Nat) : Extended → Bool
  | .finite x => x.units < n * Double.unitsPerOne
  | .infinity negative => negative
  | .nan => false

theorem Extended.atMost_eq_false_of_isBelow {n : Nat} {bound : Extended}
    (h : bound.isBelow n = true) {s : Double} (hs : ((n * Double.unitsPerOne : Nat) : Int) ≤ s.units) :
    (Extended.finite s).atMost bound = false := by
  cases bound with
  | finite x =>
    have hx : x.units < n * Double.unitsPerOne := of_decide_eq_true h
    rw [atMost, Double.atMost, decide_eq_false_iff_not]
    push_cast at hs
    omega
  | infinity negative =>
    obtain rfl : negative = true := h
    rfl
  | nan => cases h

namespace Recency

theorem million_eq :
    million.isNegative = false ∧ million.magnitude = 1000000 * Double.unitsPerOne := by
  decide +kernel

theorem le_units_of_secondsOf? {n : Nat} (hn : n ≤ 1000000000) {age : Int}
    (hage : n * Timestamp.nanosPerSecond < age) {s : Double} (h : secondsOf? age = some s) :
    ((n * Double.unitsPerOne : Nat) : Int) ≤ s.units := by
  obtain ⟨us, hus, hdiv⟩ := Option.bind_eq_some_iff.mp h
  have hmicros : ((n * 1000000 : Nat) : Int) ≤ us := by
    unfold Timestamp.nanosPerSecond at hage
    unfold micros? narrow? at hus
    split at hus
    · cases hus
      have hpos : 0 ≤ age := by omega
      rw [Int.tdiv_eq_ediv_of_nonneg hpos]
      omega
    · cases hus
  -- the microseconds are rounded once on their way to a double, and their quotient once more
  obtain ⟨hmillion, hmagnitude⟩ := million_eq
  obtain ⟨hunits, hsign⟩ := Double.le_units_ofInt (n := n * 1000000) (by omega) hmicros
  refine Double.le_units_div? hsign hmillion hdiv (Double.fits_mul_unitsPerOne (by omega))
    (Double.mul_unitsPerOne_le_largestUnits (by omega)) ?_
  rw [hmagnitude]
  have hle : n * 1000000 * Double.unitsPerOne ≤ (Double.ofInt us).magnitude := by
    unfold Double.magnitude
    omega
  calc n * Double.unitsPerOne * (1000000 * Double.unitsPerOne)
      = n * 1000000 * Double.unitsPerOne * Double.unitsPerOne := by ac_rfl
    _ ≤ (Double.ofInt us).magnitude * Double.unitsPerOne := Nat.mul_le_mul_right _ hle

/-- An age over a number of seconds is not within a bound below it. -/
theorem isWithin_eq_false {n : Nat} (hn : n ≤ 1000000000) {age : Int}
    (hage : n * Timestamp.nanosPerSecond < age) {bound : Extended}
    (hbound : bound.isBelow n = true) : isWithin age bound = false := by
  unfold isWithin
  cases hs : secondsOf? age with
  | none => rfl
  | some s =>
    rw [Option.any_some,
      Extended.atMost_eq_false_of_isBelow hbound (le_units_of_secondsOf? hn hage hs), Bool.and_false]

/-! ## Indexes that are alike -/

/-- What an index holds of an event, if anything, is older than a span. -/
def IsStale (r : Recency) (span : Int) (now : Timestamp) (event : String) : Prop :=
  ∀ time, r.lastSeen? event = some time → span < now.instant - time.instant

/-- The times of an index are in order and no leap seconds. -/
structure Whole (r : Recency) : Prop where
  ordered : r.Ordered
  whole : ∀ event time, r.lastSeen? event = some time → time.isLeap = false

/-- Two indexes agree on every event, unless what they hold of it is older than a span in both. -/
structure Alike (span : Int) (now : Timestamp) (r r' : Recency) : Prop where
  whole : r.Whole
  whole' : r'.Whole
  agree : ∀ event, r.lastSeen? event = r'.lastSeen? event ∨
    (r.IsStale span now event ∧ r'.IsStale span now event)

variable {r r' : Recency} {span : Int} {now : Timestamp} {event : String}

theorem whole_empty : empty.Whole := ⟨ordered_empty, nofun⟩

theorem Whole.prune (h : r.Whole) (now : Timestamp) (window : Int) : (r.prune now window).Whole := by
  refine ⟨h.ordered.prune now window, fun event time htime => ?_⟩
  rw [lastSeen?_prune h.ordered] at htime
  exact h.whole event time (Option.eq_some_of_filter_eq_some htime)

theorem Whole.record (h : r.Whole) (event : String) {time : Timestamp} (htime : time.isLeap = false) :
    (r.record event time).Whole := by
  refine ⟨h.ordered.record event time, fun name t ht => ?_⟩
  rw [lastSeen?_record] at ht
  split at ht
  · cases ht
    rcases Timestamp.latest_eq_or ((r.lastSeen? event).getD time) time with heq | heq
    · rw [heq]
      cases hlast : r.lastSeen? event with
      | none => exact htime
      | some last => exact h.whole event last hlast
    · rw [heq]
      exact htime
  · exact h.whole name t ht

namespace IsStale

theorem later (h : r.IsStale span now event) {now' : Timestamp}
    (hnow : now.instant ≤ now'.instant) : r.IsStale span now' event := by
  intro time htime
  have hold : span < now.instant - time.instant := h time htime
  omega

/-- A prune leaves it as it is or drops it. -/
theorem prune (h : r.IsStale span now event) (hr : r.Whole) (moment : Timestamp) (window : Int) :
    (r.prune moment window).IsStale span now event := by
  intro time htime
  rw [lastSeen?_prune hr.ordered] at htime
  exact h time (Option.eq_some_of_filter_eq_some htime)

/-- A record replaces it. -/
theorem latest_eq (h : r.IsStale span now event) (hr : r.Whole) (hspan : 0 ≤ span)
    (hnow : now.isLeap = false) : ((r.lastSeen? event).getD now).latest now = now := by
  cases hlast : r.lastSeen? event with
  | none => exact Timestamp.latest_self now
  | some time =>
    have hold : span < now.instant - time.instant := h time hlast
    rcases Timestamp.latest_cases (hr.whole event time hlast) hnow with ⟨-, hle⟩ | ⟨heq, -⟩
    · omega
    · exact heq

/-- A check whose bound is below the span does not see it. -/
theorem within_eq_false {n : Nat} (hn : n ≤ 1000000000)
    (h : r.IsStale (n * Timestamp.nanosPerSecond) now event) (hr : r.Whole)
    (hnow : now.isLeap = false) {bound : Extended} (hbound : bound.isBelow n = true) :
    r.within event bound now = false := by
  unfold within age?
  cases hlast : r.lastSeen? event with
  | none => rfl
  | some time =>
    rw [Option.map_some, Option.any_some,
      Timestamp.since_of_whole hnow (hr.whole event time hlast)]
    exact isWithin_eq_false hn (h time hlast) hbound

end IsStale

namespace Alike

theorem empty (span : Int) (now : Timestamp) : Alike span now .empty .empty :=
  ⟨whole_empty, whole_empty, fun _ => .inl rfl⟩

theorem later (h : Alike span now r r') {now' : Timestamp} (hnow : now.instant ≤ now'.instant) :
    Alike span now' r r' :=
  ⟨h.whole, h.whole', fun event => (h.agree event).imp_right fun hstale =>
    ⟨hstale.1.later hnow, hstale.2.later hnow⟩⟩

/-- Indexes stay alike when each is pruned by a window that is no shorter than the span. -/
theorem prune (h : Alike span now r r') (hnow : now.isLeap = false) {window window' : Int}
    (hwindow : span ≤ window) (hwindow' : span ≤ window') :
    Alike span now (r.prune now window) (r'.prune now window') := by
  refine ⟨h.whole.prune now window, h.whole'.prune now window', fun event => ?_⟩
  rcases h.agree event with heq | ⟨hstale, hstale'⟩
  · by_cases hold : r.IsStale span now event
    · have hold' : r'.IsStale span now event := fun time htime => hold time (heq.trans htime)
      exact .inr ⟨hold.prune h.whole now window, hold'.prune h.whole' now window'⟩
    -- what is not older than the span outlives both prunes
    · left
      unfold IsStale at hold
      push Not at hold
      obtain ⟨time, htime, hage⟩ := hold
      have hsince := Timestamp.since_of_whole hnow (h.whole.whole event time htime)
      rw [lastSeen?_prune h.whole.ordered, lastSeen?_prune h.whole'.ordered, ← heq, htime,
        Option.filter_some, Option.filter_some, hsince]
      rw [if_pos (decide_eq_true (hage.trans hwindow)), if_pos (decide_eq_true (hage.trans hwindow'))]
  · exact .inr ⟨hstale.prune h.whole now window, hstale'.prune h.whole' now window'⟩

/-- Indexes stay alike when both take down the same event. -/
theorem record (h : Alike span now r r') (hspan : 0 ≤ span) (hnow : now.isLeap = false)
    (name : String) : Alike span now (r.record name now) (r'.record name now) := by
  refine ⟨h.whole.record name hnow, h.whole'.record name hnow, fun event => ?_⟩
  by_cases hname : event = name
  · subst hname
    left
    rw [lastSeen?_record, lastSeen?_record, if_pos rfl, if_pos rfl]
    rcases h.agree event with heq | ⟨hstale, hstale'⟩
    · rw [heq]
    · rw [hstale.latest_eq h.whole hspan hnow, hstale'.latest_eq h.whole' hspan hnow]
  · unfold IsStale
    rw [lastSeen?_record, lastSeen?_record, if_neg hname, if_neg hname]
    exact h.agree event

theorem within_eq {n : Nat} (hn : n ≤ 1000000000)
    (h : Alike (n * Timestamp.nanosPerSecond) now r r') (hnow : now.isLeap = false) {bound : Extended}
    (hbound : bound.isBelow n = true) (event : String) :
    r.within event bound now = r'.within event bound now := by
  rcases h.agree event with heq | ⟨hstale, hstale'⟩
  · unfold within age?
    rw [heq]
  · rw [hstale.within_eq_false hn h.whole hnow hbound,
      hstale'.within_eq_false hn h.whole' hnow hbound]

end Alike

end Recency

end Telltale
