import Telltale.Proofs.Expr.Reads

/-!
# The events that a catalog knows

A catalog lists the events that its expressions name, themselves or through a category. No other
event makes a difference to a snapshot, neither by the time at which it was last seen nor by being
the event of the frame.

* `Catalog.mem_eventNames` — the list has what the expressions name, at every depth, and no more.
* `Catalog.AsksForAny` — some expression asks for every event there is.
* `Expr.eventValue?_unknown` — an expression that does not ask for every event reads nothing from an
  event that it does not name.
* `derive_eventNames` — snapshots and diagnostics depend on known events alone.
-/

namespace Telltale

/-! ## Known events -/

theorem Names.mem_foldl_insert {names : List String} {s : Names} {n : String} :
    n ∈ names.foldl (fun s n => Names.insert n s) s ↔ n ∈ names ∨ n ∈ s := by
  induction names generalizing s with
  | nil => simp
  | cons m rest ih =>
    rw [List.foldl_cons, ih, Names.mem_insert, List.mem_cons, or_left_comm, or_assoc]

theorem Names.mem_ofList {names : List String} {n : String} :
    n ∈ Names.ofList names ↔ n ∈ names := by
  simp [Names.ofList, Names.mem_foldl_insert]

namespace Catalog

variable {c : Catalog}

theorem mem_subterms {id : String} {e : Expr} :
    (id, e) ∈ c.subterms ↔ ∃ s ∈ c.signals, s.id = id ∧ e ∈ s.expr.subterms := by
  simp only [subterms, List.mem_flatMap, List.mem_map, Prod.mk.injEq]
  constructor
  · rintro ⟨s, hs, e, he, rfl, rfl⟩
    exact ⟨s, hs, rfl, he⟩
  · rintro ⟨s, hs, rfl, he⟩
    exact ⟨s, hs, e, he, rfl, rfl⟩

/-- A catalog knows the events that its expressions name. -/
theorem mem_eventNames {n : String} :
    n ∈ c.eventNames ↔
      ∃ s ∈ c.signals, ∃ e ∈ s.expr.subterms, n ∈ eventsOf c.vocabulary e := by
  simp only [eventNames, Names.mem_ofList, List.mem_flatMap, Prod.exists, mem_subterms]
  constructor
  · rintro ⟨-, e, ⟨s, hs, rfl, he⟩, hn⟩
    exact ⟨s, hs, e, he, hn⟩
  · rintro ⟨s, hs, e, he, hn⟩
    exact ⟨s.id, e, ⟨s, hs, rfl, he⟩, hn⟩

/-- Some expression asks for every event there is: for the wildcard, without a category. -/
def AsksForAny (c : Catalog) : Prop :=
  ∃ s ∈ c.signals, ∃ field default, Expr.event anyEvent field none default ∈ s.expr.subterms

end Catalog

/-! ## Unknown events -/

namespace Expr

variable {v : Vocabulary} {name : String} {category : Option String}

/-- An event that is asked for is one that is named, if not every event is asked for. -/
theorem mem_eventsOf_of_matchesEvent {field : Option String} {default : Option Json}
    {event : String}
    (hany : name = anyEvent → category ≠ none) (h : matchesEvent v name category event = true) :
    event ∈ Catalog.eventsOf v (.event name field category default) := by
  by_cases hname : name = anyEvent
  · obtain ⟨c, rfl⟩ := Option.ne_none_iff_exists'.mp (hany hname)
    simpa [matchesEvent, Catalog.eventsOf, hname] using h
  · obtain rfl : name = event := by simpa [matchesEvent, hname] using h
    simp [Catalog.eventsOf, hname]

/-- An expression that does not ask for every event reads nothing from an event that it does not
name. -/
theorem eventValue?_unknown {field : Option String} (default : Option Json) {s : Scene}
    (hany : name = anyEvent → category ≠ none)
    (h : ∀ event, s.frame.eventName? = some event →
      event ∉ Catalog.eventsOf v (.event name field category default)) :
    eventValue? v s name field category = none := by
  unfold eventValue?
  cases hevent : s.frame.eventName? with
  | none => rfl
  | some event =>
    have hmatches : ¬ matchesEvent v name category event = true :=
      fun hmatches => h event hevent (mem_eventsOf_of_matchesEvent hany hmatches)
    show (if matchesEvent v name category event = true then _ else none) = none
    rw [if_neg hmatches]

end Expr

/-- A frame on which an event is set has no other one. -/
theorem Frame.eq_of_eventName?_set {f : Frame} {name event : String}
    (h : Frame.eventName? { f with event := some name } = some event) : event = name := by
  unfold Frame.eventName? at h
  split at h
  · exact (Option.some.inj h).symm
  · cases h

/-! ## Snapshots -/

/-- Times that agree on the known events make no difference. -/
theorem derive_of_lastSeen?_eq {d : Deriver} {r r' : Recency}
    (h : ∀ name ∈ d.catalog.eventNames, r.lastSeen? name = r'.lastSeen? name) (f : Frame)
    (x : Externals) (now : Timestamp) : d.derive ⟨f, x, r, now⟩ = d.derive ⟨f, x, r', now⟩ := by
  apply Deriver.derive_of_sameReads (Scene.sameReads_of_frame ..)
  intro s hs name bound hmem
  have hname : name ∈ d.catalog.eventNames :=
    Catalog.mem_eventNames.mpr ⟨s, hs, _, hmem, List.mem_singleton_self name⟩
  unfold Recency.within Recency.age?
  rw [h name hname]

/-- Of two unknown events it makes no difference which one is set on a frame. -/
theorem derive_of_unknown {d : Deriver} (hany : ¬ d.catalog.AsksForAny) {name name' : String}
    (hname : name ∉ d.catalog.eventNames) (hname' : name' ∉ d.catalog.eventNames) (f : Frame)
    (x : Externals) (r : Recency) (now : Timestamp) :
    d.derive ⟨{ f with event := some name }, x, r, now⟩ =
      d.derive ⟨{ f with event := some name' }, x, r, now⟩ := by
  apply Deriver.derive_of_eval_eq
  intro s hs
  apply Expr.eval_eq_of_alike
  intro t ht hreading
  cases t with
  | path | bitfield | recent => rfl
  | event pattern field category default =>
    -- neither event is asked for, so both frames are left with the default
    have hwildcard : pattern = anyEvent → category ≠ none := by
      rintro rfl rfl
      exact hany ⟨s, hs, field, default, ht⟩
    have hunread {n : String} (hn : n ∉ d.catalog.eventNames) :
        Expr.eventValue? d.catalog.vocabulary ⟨{ f with event := some n }, x, r, now⟩ pattern field
          category = none := by
      apply Expr.eventValue?_unknown default hwildcard
      rintro event hevent hmem
      obtain rfl := Frame.eq_of_eventName?_set hevent
      exact hn (Catalog.mem_eventNames.mpr ⟨s, hs, _, ht, hmem⟩)
    simp only [Expr.eval, hunread hname, hunread hname']
  | _ => cases hreading

/-- **Snapshots depend on known events alone**, for every catalog with any combiners. Two indexes of
times that agree on the events that the catalog knows bring the same snapshot and the same
diagnostics. If no expression asks for every event there is, so do two frames that differ only in the
event that is set on them, where both events are unknown. -/
theorem derive_eventNames (d : Deriver) (f : Frame) (x : Externals) (now : Timestamp) :
    (∀ r r' : Recency, (∀ name ∈ d.catalog.eventNames, r.lastSeen? name = r'.lastSeen? name) →
      d.derive ⟨f, x, r, now⟩ = d.derive ⟨f, x, r', now⟩) ∧
    (¬ d.catalog.AsksForAny → ∀ (r : Recency) (name name' : String),
      name ∉ d.catalog.eventNames → name' ∉ d.catalog.eventNames →
      d.derive ⟨{ f with event := some name }, x, r, now⟩ =
        d.derive ⟨{ f with event := some name' }, x, r, now⟩) :=
  ⟨fun _ _ h => derive_of_lastSeen?_eq h f x now,
    fun hany r _ _ hname hname' => derive_of_unknown hany hname hname' f x r now⟩

/-- A catalog that checks for an event inside a negation and asks for those of a category. -/
def lookout : Catalog where
  version := 1
  vocabulary := ⟨[], [("docking", ["Docked", "Undocked"])]⟩
  signals := [
    { id := "quiet"
      type := .bool
      values := []
      default := none
      description := none
      expr := .all [.not (.recent "Music" (.finite (.ofInt 3)))] },
    { id := "traffic"
      type := .string
      values := []
      default := none
      description := none
      expr := .event anyEvent none (some "docking") none }]

theorem derive_eventNames_lookout :
    let d : Deriver := ⟨lookout, .absent⟩
    let f : Frame := ⟨.journal, none, ⟨9, 0⟩, .object []⟩
    let r : Recency := ⟨[("Docked", ⟨5, 0⟩), ("Music", ⟨8, 0⟩), ("Scan", ⟨7, 0⟩)]⟩
    let r' : Recency := ⟨[("Docked", ⟨5, 0⟩), ("Music", ⟨8, 0⟩)]⟩
    lookout.Accepted ∧ lookout.eventNames = ["Docked", "Music", "Undocked"] ∧
    ¬ lookout.AsksForAny ∧
    d.derive ⟨f, .absent, r, ⟨9, 0⟩⟩ = d.derive ⟨f, .absent, r', ⟨9, 0⟩⟩ ∧
    d.derive ⟨{ f with event := some "Scan" }, .absent, r, ⟨9, 0⟩⟩ =
      d.derive ⟨{ f with event := some "Jump" }, .absent, r, ⟨9, 0⟩⟩ := by
  intro d f r r'
  have hfault : lookout.fault?.isNone = true := by decide +kernel
  have hnames : lookout.eventNames = ["Docked", "Music", "Undocked"] := by decide +kernel
  have hany : ¬ lookout.AsksForAny := by
    rintro ⟨s, hs, field, default, hmem⟩
    simp only [lookout, List.mem_cons, List.not_mem_nil, or_false] at hs
    rcases hs with rfl | rfl <;> simp [Expr.subterms, Expr.subtermsOfTerms] at hmem
  obtain ⟨htimes, hevents⟩ := derive_eventNames d f .absent ⟨9, 0⟩
  refine ⟨Option.isNone_iff_eq_none.mp hfault, hnames, hany, htimes r r' ?_, ?_⟩
  · rw [show d.catalog.eventNames = _ from hnames]
    decide
  · apply hevents hany r <;> rw [show d.catalog.eventNames = _ from hnames] <;> decide

end Telltale
