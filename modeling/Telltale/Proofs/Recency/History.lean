import Mathlib.Data.List.Induction
import Telltale.Proofs.Table.Order
import Telltale.Recency

/-!
# What an index of times holds

An index keeps one time for each event, although records come in in any order and old ones are
pruned in between. Nothing is lost by that: where any record would have outlived all prunes, the
latest one does.

* `Recency.lastSeen?_record`, `Recency.lastSeen?_prune` — what an index answers after each change.
* `Recency.survivors` — the times of the records that every later change keeps. It knows nothing of
  the index.
* `Recency.IsLatest.append`, `Recency.IsLatest.filter` — the latest of several times, as times come
  in and as old ones go.
* `Recency.isLatest_after` — after any changes an index holds the latest of the survivors.
-/

namespace Telltale

/-! ## Moments without leap seconds -/

namespace Timestamp

theorem isBefore_iff {a b : Timestamp} (ha : a.isLeap = false) (hb : b.isLeap = false) :
    a.isBefore b = true ↔ a.instant < b.instant := by
  have ha : a.nanos < 1000000000 := Nat.lt_of_not_le (of_decide_eq_false ha)
  have hb : b.nanos < 1000000000 := Nat.lt_of_not_le (of_decide_eq_false hb)
  simp only [isBefore, instant, nanosPerSecond, Bool.or_eq_true, Bool.and_eq_true,
    decide_eq_true_eq, beq_iff_eq]
  omega

theorem latest_eq_or (a b : Timestamp) : a.latest b = a ∨ a.latest b = b := by
  unfold latest
  split
  · exact .inr rfl
  · exact .inl rfl

@[simp] theorem latest_self (a : Timestamp) : a.latest a = a := or_self_iff.mp (latest_eq_or a a)

theorem latest_cases {a b : Timestamp} (ha : a.isLeap = false) (hb : b.isLeap = false) :
    (a.latest b = a ∧ b.instant ≤ a.instant) ∨ (a.latest b = b ∧ a.instant ≤ b.instant) := by
  unfold latest
  split
  · next h => exact .inr ⟨rfl, ((isBefore_iff ha hb).mp h).le⟩
  · next h => exact .inl ⟨rfl, not_lt.mp (mt (isBefore_iff ha hb).mpr h)⟩

end Timestamp

namespace Recency

/-! ## Changes of an index -/

/-- The times of an index stand under names in order. -/
def Ordered (r : Recency) : Prop := Table.Ordered r.seen

theorem ordered_empty : empty.Ordered := .nil

theorem Ordered.record {r : Recency} (h : r.Ordered) (event : String) (time : Timestamp) :
    (r.record event time).Ordered :=
  Table.Ordered.insert h event _

theorem Ordered.prune {r : Recency} (h : r.Ordered) (now : Timestamp) (window : Int) :
    (r.prune now window).Ordered :=
  Table.Ordered.filter h _

/-- Indexes in order that answer alike are the same. -/
theorem Ordered.ext {r r' : Recency} (h : r.Ordered) (h' : r'.Ordered)
    (hlast : ∀ event, r.lastSeen? event = r'.lastSeen? event) : r = r' :=
  congrArg Recency.mk (Table.Ordered.ext h h' hlast)

theorem lastSeen?_record (r : Recency) (event : String) (time : Timestamp) (name : String) :
    (r.record event time).lastSeen? name =
      if name = event then some (((r.lastSeen? event).getD time).latest time)
      else r.lastSeen? name :=
  Table.get?_insert r.seen event _ name

theorem lastSeen?_prune {r : Recency} (h : r.Ordered) (now : Timestamp) (window : Int)
    (name : String) :
    (r.prune now window).lastSeen? name =
      (r.lastSeen? name).filter fun time => now.since time ≤ window :=
  Table.get?_filter h _ name

/-- A change of an index. -/
inductive Change where
  | record (event : String) (time : Timestamp)
  | prune (now : Timestamp) (window : Int)
  | clear

/-- An index after a change. -/
def apply (r : Recency) : Change → Recency
  | .record event time => r.record event time
  | .prune now window => r.prune now window
  | .clear => .empty

/-- An index after changes in a row, from an empty one on. -/
def after (changes : List Change) : Recency := changes.foldl apply .empty

theorem after_append_singleton (changes : List Change) (c : Change) :
    after (changes ++ [c]) = (after changes).apply c :=
  List.foldl_concat apply .empty c changes

theorem ordered_after (changes : List Change) : (after changes).Ordered := by
  induction changes using List.reverseRecOn with
  | nil => exact ordered_empty
  | append_singleton changes c ih =>
    rw [after_append_singleton]
    cases c with
    | record event time => exact ih.record event time
    | prune now window => exact ih.prune now window
    | clear => exact ordered_empty

/-! ## Records that survive -/

namespace Change

/-- The time that a change names, if it names one, is no leap second. -/
def IsWhole : Change → Prop
  | .record _ time => time.isLeap = false
  | .prune now _ => now.isLeap = false
  | .clear => True

/-- Whether a change keeps the record of a time: only a prune keeps some records and not others,
by their age. -/
def keeps (time : Timestamp) : Change → Bool
  | .record .. => true
  | .prune now window => now.instant - time.instant ≤ window
  | .clear => false

/-- The time that a change records of an event. -/
def recorded? (event : String) : Change → Option Timestamp
  | .record name time => if name = event then some time else none
  | .prune .. | .clear => none

end Change

/-- The times of the records of an event that all later changes keep. -/
def survivors (event : String) : List Change → List Timestamp
  | [] => []
  | c :: later =>
    (c.recorded? event).toList.filter (fun time => later.all (·.keeps time)) ++
      survivors event later

/-- A change at the end keeps some of the survivors, and adds what it records itself. -/
theorem survivors_append_singleton (event : String) (changes : List Change) (c : Change) :
    survivors event (changes ++ [c]) =
      (survivors event changes).filter (c.keeps ·) ++ (c.recorded? event).toList := by
  induction changes with
  | nil =>
    show (c.recorded? event).toList.filter (fun _ => true) ++ [] = [] ++ (c.recorded? event).toList
    rw [List.filter_true, List.append_nil, List.nil_append]
  | cons c' later ih =>
    have hkept : (c'.recorded? event).toList.filter (fun time => (later ++ [c]).all (·.keeps time)) =
        ((c'.recorded? event).toList.filter fun time => later.all (·.keeps time)).filter
          (c.keeps ·) := by
      rw [List.filter_filter]
      refine List.filter_congr fun time _ => ?_
      rw [List.all_append, List.all_cons, List.all_nil, Bool.and_true, Bool.and_comm]
    rw [List.cons_append, survivors, survivors, ih, hkept, List.filter_append, List.append_assoc]

/-! ## The latest of several times -/

/-- The latest of several times, if there are any. -/
def IsLatest (times : List Timestamp) : Option Timestamp → Prop
  | none => times = []
  | some time => time ∈ times ∧ ∀ u ∈ times, u.instant ≤ time.instant

namespace IsLatest

variable {times : List Timestamp} {last? : Option Timestamp}

/-- One more time is the latest, unless an earlier one is. -/
theorem append (h : IsLatest times last?) (hwhole : ∀ u ∈ times, u.isLeap = false) {time : Timestamp}
    (htime : time.isLeap = false) :
    IsLatest (times ++ [time]) (some ((last?.getD time).latest time)) := by
  cases last? with
  | none =>
    obtain rfl : times = [] := h
    rw [Option.getD_none, Timestamp.latest_self]
    exact ⟨List.mem_singleton_self _, fun u hu => (congrArg _ (List.mem_singleton.mp hu)).le⟩
  | some last =>
    obtain ⟨hmem, hlast⟩ := h
    rw [Option.getD_some]
    rcases Timestamp.latest_cases (hwhole last hmem) htime with ⟨heq, hle⟩ | ⟨heq, hle⟩
    · rw [heq]
      refine ⟨List.mem_append_left _ hmem, fun u hu => ?_⟩
      rcases List.mem_append.mp hu with hu | hu
      · exact hlast u hu
      · rw [List.mem_singleton.mp hu]
        exact hle
    · rw [heq]
      refine ⟨List.mem_append_right _ (List.mem_singleton_self _), fun u hu => ?_⟩
      rcases List.mem_append.mp hu with hu | hu
      · exact (hlast u hu).trans hle
      · rw [List.mem_singleton.mp hu]

/-- Where old times go, the latest goes last: it is kept if any is. -/
theorem filter (h : IsLatest times last?) {p : Timestamp → Bool}
    (hp : ∀ u v, u.instant ≤ v.instant → p u = true → p v = true) :
    IsLatest (times.filter p) (last?.filter p) := by
  cases last? with
  | none =>
    obtain rfl : times = [] := h
    exact List.filter_nil
  | some last =>
    obtain ⟨hmem, hlast⟩ := h
    rw [Option.filter_some]
    split
    · next hkept =>
      exact ⟨List.mem_filter.mpr ⟨hmem, hkept⟩, fun u hu => hlast u (List.mem_of_mem_filter hu)⟩
    · next hgone =>
      exact List.filter_eq_nil_iff.mpr fun u hu hkept => hgone (hp u last (hlast u hu) hkept)

end IsLatest

/-! ## What an index holds -/

theorem exists_of_mem_survivors {event : String} {changes : List Change} {time : Timestamp}
    (h : time ∈ survivors event changes) : .record event time ∈ changes := by
  induction changes with
  | nil => cases h
  | cons c later ih =>
    rcases List.mem_append.mp h with h | h
    · have hrecorded := Option.mem_toList.mp (List.mem_of_mem_filter h)
      cases c with
      | record name time' =>
        simp only [Change.recorded?, Option.ite_none_right_eq_some, Option.some.injEq] at hrecorded
        obtain ⟨rfl, rfl⟩ := hrecorded
        exact List.mem_cons_self
      | prune now window => cases hrecorded
      | clear => cases hrecorded
    · exact List.mem_cons_of_mem _ (ih h)

/-- After any changes, in whatever order their times are, an index holds the latest of the records
that survived. -/
theorem isLatest_after {changes : List Change} (hwhole : ∀ c ∈ changes, c.IsWhole)
    (event : String) : IsLatest (survivors event changes) ((after changes).lastSeen? event) := by
  -- from the front, as changes come in: each acts on what the earlier ones left
  induction changes using List.reverseRecOn with
  | nil => exact rfl
  | append_singleton changes c ih =>
    have hbefore : ∀ c ∈ changes, c.IsWhole := fun c hc => hwhole c (List.mem_append_left _ hc)
    have hc : c.IsWhole := hwhole c (List.mem_append_right _ (List.mem_singleton_self c))
    have htimes : ∀ u ∈ survivors event changes, u.isLeap = false :=
      fun u hu => hbefore _ (exists_of_mem_survivors hu)
    have hlatest := ih hbefore
    rw [after_append_singleton, survivors_append_singleton]
    cases c with
    | record name time =>
      have hkept : (survivors event changes).filter (Change.keeps · (.record name time)) =
          survivors event changes :=
        List.filter_true _
      rw [apply, lastSeen?_record, hkept, Change.recorded?]
      by_cases hname : name = event
      · subst hname
        rw [if_pos rfl, if_pos rfl]
        exact hlatest.append htimes hc
      · rw [if_neg (Ne.symm hname), if_neg hname, Option.toList_none, List.append_nil]
        exact hlatest
    | prune now window =>
      have hage : ((after changes).lastSeen? event).filter (fun time => now.since time ≤ window) =
          ((after changes).lastSeen? event).filter (Change.keeps · (.prune now window)) := by
        cases hlast : (after changes).lastSeen? event with
        | none => rfl
        | some last =>
          rw [hlast] at hlatest
          rw [Option.filter_some, Option.filter_some, Change.keeps,
            Timestamp.since_of_whole hc (htimes last hlatest.1)]
      rw [apply, lastSeen?_prune (ordered_after changes), hage, Change.recorded?,
        Option.toList_none, List.append_nil]
      refine hlatest.filter fun u v hle hkept => ?_
      rw [Change.keeps, decide_eq_true_eq] at hkept ⊢
      omega
    | clear =>
      have hgone : (survivors event changes).filter (Change.keeps · .clear) = [] :=
        List.filter_false _
      rw [hgone]
      rfl

end Recency

end Telltale
