import Mathlib.Data.List.Basic
import Telltale.Proofs.Expr.Reads
import Telltale.Proofs.Recency.Sight
import Telltale.Proofs.Session.Times

/-!
# Windows over all bounds are not seen

The window of a session decides how long the times of events are kept. Where it is greater than all
bounds of the catalog's checks, what it drops is too old for any of them.

* `Catalog.boundsBelow` — whether every bound of a catalog is less than a number of seconds.
* `Session.Forward` — on a run, the frames of each actor come in in the order of their times.
* `Session.SameSight` — two sessions differ in nothing but their windows and what is too old to be
  seen. It is kept by the same frame in both, which brings the same tick (`SameSight.ingest`), and
  so by every run (`SameSight.run`).
* `Session.windows_unseen` — two sessions with windows over all bounds answer alike.
-/

namespace Telltale

/-! ## Catalogs -/

/-- Whether every bound of the checks for recent events is less than a number of seconds. -/
def Catalog.boundsBelow (c : Catalog) (n : Nat) : Bool :=
  c.subterms.all fun (_, e) => (boundOf? e).all (·.isBelow n)

theorem Catalog.isBelow_of_boundsBelow {c : Catalog} {n : Nat} (h : c.boundsBelow n = true)
    {s : Signal} (hs : s ∈ c.signals) {name : String} {bound : Extended}
    (hmem : .recent name bound ∈ s.expr.subterms) : bound.isBelow n = true := by
  have hsub : (s.id, .recent name bound) ∈ c.subterms :=
    List.mem_flatMap.mpr ⟨s, hs, List.mem_map_of_mem hmem⟩
  exact List.all_eq_true.mp h _ hsub

namespace Session

/-! ## Runs forward in time -/

/-- The frames of an actor on a run. -/
def framesOf (actor : String) (calls : List Event) : List Frame :=
  calls.filterMap fun
    | .ingest other f _ => if other = actor then some f else none
    | .reload _ | .resize _ => none

theorem framesOf_ingest (actor other : String) (f : Frame) (x : Externals) (rest : List Event) :
    framesOf actor (.ingest other f x :: rest) =
      if other = actor then f :: framesOf actor rest else framesOf actor rest := by
  by_cases h : other = actor
  · simp [framesOf, h]
  · simp [framesOf, h]

theorem mem_framesOf_ingest (actor : String) (f : Frame) (x : Externals) (rest : List Event) :
    f ∈ framesOf actor (.ingest actor f x :: rest) := by
  rw [framesOf_ingest, if_pos rfl]
  exact List.mem_cons_self

/-- The frames of each actor come in in the order of their times, none of which is a leap second,
and the window stays. -/
structure Forward (calls : List Event) : Prop where
  steady : ∀ window, .resize window ∉ calls
  whole : ∀ actor, ∀ f ∈ framesOf actor calls, f.timestamp.isLeap = false
  ordered : ∀ actor, (framesOf actor calls).Pairwise fun f g =>
    f.timestamp.instant ≤ g.timestamp.instant

theorem framesOf_sublist_cons (actor : String) (call : Event) (rest : List Event) :
    (framesOf actor rest).Sublist (framesOf actor (call :: rest)) :=
  (List.sublist_cons_self call rest).filterMap _

theorem Forward.tail {call : Event} {rest : List Event} (h : Forward (call :: rest)) :
    Forward rest where
  steady window hmem := h.steady window (List.mem_cons_of_mem _ hmem)
  whole actor f hf := h.whole actor f ((framesOf_sublist_cons actor call rest).subset hf)
  ordered actor := (h.ordered actor).sublist (framesOf_sublist_cons actor call rest)

/-! ## Sessions that see the same -/

theorem windowOfSeconds_mono {n n' : Nat} (h : n ≤ n') : windowOfSeconds n ≤ windowOfSeconds n' := by
  unfold windowOfSeconds Timestamp.nanosPerSecond
  omega

/-- Two sessions differ in nothing but windows, neither of which is shorter than a number of
seconds, and times of events that are older than that whenever a frame is still to come. -/
structure SameSight (n : Nat) (future : List Event) (s s' : Session) : Prop where
  deriver : s.deriver = s'.deriver
  bounds : s.deriver.catalog.boundsBelow n = true
  trigger : s.trigger = s'.trigger
  window : windowOfSeconds n ≤ s.window
  window' : windowOfSeconds n ≤ s'.window
  flags : ∀ actor, s.flags? actor = s'.flags? actor
  recency : ∀ actor, ∀ f ∈ framesOf actor future, Recency.Alike (windowOfSeconds n) f.timestamp
    (s.stateOf actor).recency (s'.stateOf actor).recency

theorem sameSight_start {d : Deriver} {n : Nat} (hbounds : d.catalog.boundsBelow n = true)
    (rules : RuleSet) {window window' : Int} (hwindow : windowOfSeconds n ≤ window)
    (hwindow' : windowOfSeconds n ≤ window') (future : List Event) :
    SameSight n future (start d rules window) (start d rules window') :=
  ⟨rfl, hbounds, rfl, hwindow, hwindow', fun _ => rfl, fun _ f _ => .empty _ f.timestamp⟩

theorem flags_stateOf (s : Session) (actor : String) :
    (s.stateOf actor).flags = (s.flags? actor).getD [] := by
  unfold stateOf flags?
  cases s.actor? actor <;> rfl

namespace SameSight

variable {n : Nat} {s s' : Session} {actor : String} {f : Frame} {x : Externals} {rest : List Event}

/-- The indexes that a frame is derived with are alike. -/
theorem alike_sceneOf (h : SameSight n (.ingest actor f x :: rest) s s')
    (hcalls : Forward (.ingest actor f x :: rest)) :
    Recency.Alike (windowOfSeconds n) f.timestamp (s.sceneOf actor f x).recency
      (s'.sceneOf actor f x).recency := by
  have hmem := mem_framesOf_ingest actor f x rest
  have hwhole : f.timestamp.isLeap = false := hcalls.whole actor f hmem
  have hpruned := (h.recency actor f hmem).prune hwhole h.window h.window'
  have hspan : 0 ≤ windowOfSeconds n := windowOfSeconds_mono (Nat.zero_le n)
  unfold sceneOf recencyAt Recency.record?
  cases f.eventName? with
  | none => exact hpruned
  | some event => exact hpruned.record hspan hwhole event

theorem derivedOf_eq (h : SameSight n (.ingest actor f x :: rest) s s') (hn : n ≤ 1000000000)
    (hcalls : Forward (.ingest actor f x :: rest)) :
    s.derivedOf actor f x = s'.derivedOf actor f x := by
  have hwhole : f.timestamp.isLeap = false :=
    hcalls.whole actor f (mem_framesOf_ingest actor f x rest)
  unfold derivedOf sceneOf
  rw [← h.deriver]
  refine Deriver.derive_of_sameReads (Scene.sameReads_of_frame ..) ?_
  intro signal hsignal name bound hmem
  exact (h.alike_sceneOf hcalls).within_eq hn hwhole
    (Catalog.isBelow_of_boundsBelow h.bounds hsignal hmem) name

/-- The same frame brings the same tick, and the sessions still see the same. -/
theorem ingest (h : SameSight n (.ingest actor f x :: rest) s s') (hn : n ≤ 1000000000)
    (hcalls : Forward (.ingest actor f x :: rest)) :
    (s.ingest actor f x).1 = (s'.ingest actor f x).1 ∧
    SameSight n rest (s.ingest actor f x).2 (s'.ingest actor f x).2 := by
  have hderived := h.derivedOf_eq hn hcalls
  have hprocessed : s.processedOf actor f x = s'.processedOf actor f x := by
    unfold processedOf
    rw [h.trigger, hderived]
  constructor
  · show s.tickOf actor f x = s'.tickOf actor f x
    unfold tickOf
    rw [hderived, hprocessed]
  · refine ⟨h.deriver, h.bounds, congrArg Prod.snd hprocessed, h.window, h.window', ?_, ?_⟩
    · intro other
      unfold flags?
      rw [actor?_ingest, actor?_ingest]
      by_cases heq : other = actor
      · rw [if_pos heq, if_pos heq, Option.map_some, Option.map_some, stateAfter, stateAfter,
          flags_stateOf, flags_stateOf, h.flags actor, hprocessed]
      · rw [if_neg heq, if_neg heq]
        exact h.flags other
    · intro other g hg
      unfold stateOf
      rw [actor?_ingest, actor?_ingest]
      by_cases heq : other = actor
      · subst heq
        -- the frame's own time is not after that of any frame of the actor that is to come
        have hpairs := hcalls.ordered other
        rw [framesOf_ingest, if_pos rfl] at hpairs
        rw [if_pos rfl, if_pos rfl]
        exact (h.alike_sceneOf hcalls).later ((List.pairwise_cons.mp hpairs).1 g hg)
      · rw [if_neg heq, if_neg heq]
        exact h.recency other g ((framesOf_sublist_cons other _ rest).subset hg)

theorem reload {rules : RuleSet} (h : SameSight n (.reload rules :: rest) s s') :
    SameSight n rest (s.reload rules) (s'.reload rules) :=
  ⟨h.deriver, h.bounds, rfl, h.window, h.window', h.flags, fun actor f hf =>
    h.recency actor f ((framesOf_sublist_cons actor _ rest).subset hf)⟩

/-- The same run brings the same ticks, from sessions that see the same. -/
theorem run {calls : List Event} (h : SameSight n calls s s') (hn : n ≤ 1000000000)
    (hcalls : Forward calls) :
    (Session.run calls s).1 = (Session.run calls s').1 ∧
    SameSight n [] (Session.run calls s).2 (Session.run calls s').2 := by
  induction calls generalizing s s' with
  | nil => exact ⟨rfl, h⟩
  | cons call rest ih =>
    rw [run_cons, run_cons]
    cases call with
    | ingest actor f x =>
      obtain ⟨htick, hnext⟩ := h.ingest hn hcalls
      obtain ⟨hticks, hlast⟩ := ih hnext hcalls.tail
      exact ⟨congrArg₂ List.cons htick hticks, hlast⟩
    | reload rules => exact ih h.reload hcalls.tail
    | resize window => exact absurd List.mem_cons_self (hcalls.steady window)

end SameSight

/-- **Windows over all bounds are not seen.** Let two windows of whole seconds be greater than every
bound of a catalog, and let the frames of each actor come in in the order of their times. Then
sessions with these windows bring the same ticks, and end with the same flags and the same memory,
whatever the frames, the documents beside them and the rules are. -/
theorem windows_unseen (d : Deriver) (rules : RuleSet) {n n' : Nat} (hn : n ≤ 1000000000)
    (hn' : n' ≤ 1000000000) (hbounds : d.catalog.boundsBelow n = true)
    (hbounds' : d.catalog.boundsBelow n' = true) {calls : List Event} (hcalls : Forward calls) :
    let s := run calls (start d rules (windowOfSeconds n))
    let s' := run calls (start d rules (windowOfSeconds n'))
    s.1 = s'.1 ∧ (∀ actor, s.2.flags? actor = s'.2.flags? actor) ∧
    s.2.trigger.memory = s'.2.trigger.memory := by
  intro s s'
  -- the shorter of the two windows is the span beyond which nothing is seen
  rcases Nat.le_total n n' with hle | hle
  · have hstart := sameSight_start hbounds rules le_rfl (windowOfSeconds_mono hle) calls
    obtain ⟨hticks, hlast⟩ := hstart.run hn hcalls
    exact ⟨hticks, hlast.flags, congrArg (·.memory) hlast.trigger⟩
  · have hstart := sameSight_start hbounds' rules (windowOfSeconds_mono hle) le_rfl calls
    obtain ⟨hticks, hlast⟩ := hstart.run hn' hcalls
    exact ⟨hticks, hlast.flags, congrArg (·.memory) hlast.trigger⟩

end Session

/-- A catalog of one signal that is true for three seconds after an event. -/
def pier : Catalog where
  version := 1
  vocabulary := ⟨[], []⟩
  signals := [{
    id := "docking"
    type := .bool
    values := []
    default := none
    description := none
    expr := .recent "Docked" (.finite (.ofInt 3)) }]

/-- A rule that raises a flag for these three seconds. -/
def Rule.docking : Rule where
  id := "docking"
  title := "Docking"
  filter := ⟨none, []⟩
  all := some [.leaf ⟨.signal "docking", .compare .eq (.bool true)⟩]
  any := none
  onRise := [.setFlag "DOCKING"]
  onFall := [.clearFlag "DOCKING"]

/-- Five seconds after the event, one session has forgotten it and the other has not. -/
theorem Session.windows_unseen_pier :
    let d : Deriver := ⟨pier, .absent⟩
    let calls : List Event := [.ingest "a" (noteAt 5 "Docked") .absent,
      .ingest "b" (noteAt 1 "Docked") .absent, .ingest "a" (noteAt 8 "Music") .absent,
      .ingest "a" (noteAt 10 "Music") .absent]
    let s := run calls (start d ⟨1, [.docking]⟩ (windowOfSeconds 4))
    let s' := run calls (start d ⟨1, [.docking]⟩ (windowOfSeconds 10))
    pier.Accepted ∧ pier.boundsBelow 4 = true ∧ pier.boundsBelow 10 = true ∧ Forward calls ∧
    s.1.map (·.batches.length) = [1, 1, 0, 1] ∧
    (s.2.recency? "a").map (·.lastSeen? "Docked") = some none ∧
    (s'.2.recency? "a").map (·.lastSeen? "Docked") = some (some ⟨5, 0⟩) ∧
    s.1 = s'.1 ∧ (∀ actor, s.2.flags? actor = s'.2.flags? actor) ∧
    s.2.trigger.memory = s'.2.trigger.memory := by
  intro d calls
  have hfault : pier.fault?.isNone = true := by decide +kernel
  have hbounds : pier.boundsBelow 4 = true := by decide +kernel
  have hbounds' : pier.boundsBelow 10 = true := by decide +kernel
  have hframes (actor : String) : framesOf actor calls =
      if "a" = actor then [noteAt 5 "Docked", noteAt 8 "Music", noteAt 10 "Music"]
      else if "b" = actor then [noteAt 1 "Docked"] else [] := by
    simp only [calls, framesOf_ingest]
    split
    · next h =>
      subst h
      rfl
    · rfl
  have hcalls : Forward calls := by
    refine ⟨by simp [calls], fun actor => ?_, fun actor => ?_⟩
    · rw [hframes]
      split
      · decide
      · split <;> decide
    · rw [hframes]
      split
      · decide
      · split <;> decide
  have hsame := windows_unseen d ⟨1, [.docking]⟩ (by omega) (by omega) hbounds hbounds' hcalls
  exact ⟨Option.isNone_iff_eq_none.mp hfault, hbounds, hbounds', hcalls, by decide +kernel,
    by decide +kernel, by decide +kernel, hsame⟩

end Telltale
