import Telltale.Proofs.Catalog.Accepted
import Telltale.Proofs.Frame.Namespaces
import Telltale.Snapshot

/-!
# What an expression reads from an event

An expression over events hands back the name of the frame's event, or what it finds at the path of
a field while the frame carries an event that it asks for. The field may be any path, so that it can
lead into a document beside the frame.

* `Path.LeavesFrame` — a path names the persisted state or the external service. Every value is found
  there with some document (`exists_externals`).
* `Frame.Holds` — what a frame holds by itself: the name of its event, and every value inside its
  data. Some values it does not hold (`Frame.exists_not_holds`).
* `Expr.LooksPast` — the frame carries an event that the expression asks for, and the field leaves
  the frame. If not, what is read is held by the frame (`Expr.eventValue?_of_not_looksPast`).
* `Expr.event_own_frame_iff` — an expression over events sees nothing but the frame precisely unless
  the frame carries an event that it asks for and its field is a path that leaves the frame. An
  accepted catalog may have such a field (`Expr.state_read_for_field`).
-/

namespace Telltale

/-! ## Values at the end of a path -/

namespace Path

/-- A path names a document that can stand beside a frame. -/
def LeavesFrame (p : String) : Prop := source? p = some .state ∨ source? p = some .capi

/-- A document in which segments lead to a value. -/
def nest (v : Json) : List String → Json
  | [] => v
  | s :: rest => .object [(s, nest v rest)]

theorem walk_nest {v : Json} (hv : v.isNull = false) (segments : List String) :
    walk (nest v segments) segments = some v := by
  induction segments with
  | nil => rw [nest, walk_nil, Json.nonNull?, hv]; rfl
  | cons s rest ih =>
    have hstep : step (nest v (s :: rest)) s = some (nest v rest) := by
      rw [nest, step, Table.get?_cons, if_pos rfl]
    rw [walk_cons, hstep, Option.bind_some, ih]

theorem sizeOf_lt_of_step {v u : Json} {s : String} (h : step v s = some u) :
    sizeOf u < sizeOf v := by
  cases v with
  | object fields =>
    obtain ⟨⟨name, u'⟩, hmem, rfl⟩ := List.mem_map.mp (Table.mem_values_of_get? h)
    have hlt := List.sizeOf_lt_of_mem hmem
    simp only [Prod.mk.sizeOf_spec] at hlt
    simp only [Json.object.sizeOf_spec]
    omega
  | array items =>
    obtain ⟨i, -, hitem⟩ := Option.bind_eq_some_iff.mp h
    have hlt := List.sizeOf_lt_of_mem (List.mem_of_getElem? hitem)
    simp only [Json.array.sizeOf_spec]
    omega
  | null | bool | number | string => cases h

/-- What a walk finds is no greater than what it starts from. -/
theorem sizeOf_le_of_walk {v u : Json} {segments : List String} (h : walk v segments = some u) :
    sizeOf u ≤ sizeOf v := by
  induction segments generalizing v with
  | nil =>
    rw [walk_nil, Json.nonNull?] at h
    split at h
    · cases h
    · cases h; exact Nat.le_refl _
  | cons s rest ih =>
    obtain ⟨w, hstep, hwalk⟩ := Option.bind_eq_some_iff.mp h
    exact Nat.le_of_lt (Nat.lt_of_le_of_lt (ih hwalk) (sizeOf_lt_of_step hstep))

end Path

theorem Frame.source_of_eventName? {f : Frame} {event : String} (h : f.eventName? = some event) :
    f.source = .journal := by
  unfold eventName? at h
  cases hsource : f.source with
  | journal => rfl
  | dashboard | state | capi => rw [hsource] at h; cases h

section Journal

variable {f : Frame} {p : String}

/-- Without documents a path that leaves the frame leads nowhere, -/
theorem lookup_absent (hp : Path.LeavesFrame p) (hf : f.source = .journal) :
    lookup f .absent p = none := by
  rcases hp with hp | hp
  · rw [lookup_of_other hp (hf ▸ by decide)]; rfl
  · rw [lookup_of_other hp (hf ▸ by decide)]; rfl

/-- and with some documents to any value. -/
theorem exists_externals (hp : Path.LeavesFrame p) (hf : f.source = .journal) {v : Json}
    (hv : v.isNull = false) : ∃ x, lookup f x p = some v := by
  rcases hp with hp | hp
  · refine ⟨⟨some (Path.nest v (Path.split p).tail), none⟩, ?_⟩
    rw [lookup_of_other hp (hf ▸ by decide)]
    exact Path.walk_nest hv _
  · refine ⟨⟨none, some (Path.nest v (Path.split p).tail)⟩, ?_⟩
    rw [lookup_of_other hp (hf ▸ by decide)]
    exact Path.walk_nest hv _

/-- A path that does not leave the frame leads into its data, or nowhere. -/
theorem lookup_of_not_leavesFrame (hp : ¬ Path.LeavesFrame p) (hf : f.source = .journal) :
    (∀ x, lookup f x p = none) ∨ ∀ x, lookup f x p = Path.walk f.data (Path.inner p) := by
  cases hsource : Path.source? p with
  | none =>
    right
    intro x
    apply lookup_of_own
    intro s hs
    rw [hsource] at hs
    cases hs
  | some s =>
    cases s with
    | journal =>
      right
      intro x
      apply lookup_of_own
      intro s hs
      rw [hsource] at hs
      cases hs
      exact hf.symm
    | dashboard =>
      left
      intro x
      rw [lookup_of_other hsource (hf ▸ by decide)]
      rfl
    | state => exact absurd (.inl hsource) hp
    | capi => exact absurd (.inr hsource) hp

end Journal

/-! ## What a frame holds -/

/-- A value that a frame holds by itself. -/
inductive Frame.Holds (f : Frame) : Json → Prop where
  | event {event : String} (hevent : f.eventName? = some event) : Holds f (.string event)
  | inside {segments : List String} {value : Json} (hwalk : Path.walk f.data segments = some value) :
    Holds f value

/-- Besides a default, there are values that a frame does not hold: those that are greater than its
data. -/
theorem Frame.exists_not_holds (f : Frame) (default : Option Json) :
    ∃ u : Json, u.isNull = false ∧ default ≠ some u ∧ ¬ f.Holds u := by
  refine ⟨.array [f.data, default.getD .null], rfl, ?_, ?_⟩
  · intro h
    have hsize := congrArg (fun d => sizeOf (d.getD .null)) h
    simp only [Option.getD_some, Json.array.sizeOf_spec, List.cons.sizeOf_spec,
      List.nil.sizeOf_spec] at hsize
    omega
  · rintro (_ | hwalk)
    have hsize := Path.sizeOf_le_of_walk hwalk
    simp only [Json.array.sizeOf_spec, List.cons.sizeOf_spec, List.nil.sizeOf_spec] at hsize
    omega

namespace Expr

/-- The frame carries an event that an expression asks for, and the field leaves the frame. -/
def LooksPast (v : Vocabulary) (f : Frame) (name : String) (field category : Option String) : Prop :=
  (∃ event, f.eventName? = some event ∧ matchesEvent v name category event = true) ∧
    ∃ p, field = some p ∧ Path.LeavesFrame p

variable {v : Vocabulary} {f : Frame} {name : String} {field category : Option String}

/-- On a frame with an event that is asked for, the field is looked up. -/
theorem eventValue?_of_matches {event : String} (hevent : f.eventName? = some event)
    (hmatches : matchesEvent v name category event = true) (field : Option String) (x : Externals)
    (r : Recency) (now : Timestamp) :
    eventValue? v ⟨f, x, r, now⟩ name field category =
      field.elim (some (.string event)) (lookup f x) := by
  unfold eventValue?
  rw [hevent]
  show (if _ then _ else _) = _
  rw [if_pos hmatches]
  cases field <;> rfl

/-- Without looking past the frame, what is read is held by the frame, whatever stands beside it. -/
theorem eventValue?_of_not_looksPast (h : ¬ LooksPast v f name field category) :
    ∃ found : Option Json, (∀ u, found = some u → f.Holds u) ∧
      ∀ x r now, eventValue? v ⟨f, x, r, now⟩ name field category = found := by
  by_cases hcarries : ∃ event, f.eventName? = some event ∧ matchesEvent v name category event = true
  · obtain ⟨event, hevent, hmatches⟩ := hcarries
    have hread := eventValue?_of_matches hevent hmatches field
    cases field with
    | none =>
      refine ⟨some (.string event), ?_, hread⟩
      intro u hu
      cases hu
      exact .event hevent
    | some p =>
      have hp : ¬ Path.LeavesFrame p := fun hp => h ⟨⟨event, hevent, hmatches⟩, p, rfl, hp⟩
      rcases lookup_of_not_leavesFrame hp (Frame.source_of_eventName? hevent) with hnone | hwalk
      · exact ⟨none, (fun u hu => nomatch hu), fun x r now => (hread x r now).trans (hnone x)⟩
      · exact ⟨_, fun u hu => .inside hu, fun x r now => (hread x r now).trans (hwalk x)⟩
  · refine ⟨none, (fun u hu => nomatch hu), fun x r now => ?_⟩
    unfold eventValue?
    cases hevent : f.eventName? with
    | none => rfl
    | some event =>
      show (if _ then _ else _) = _
      rw [if_neg fun hmatches => hcarries ⟨event, hevent, hmatches⟩]

/-- Past the frame nothing is found without documents, and any value with some. -/
theorem eventValue?_of_looksPast (h : LooksPast v f name field category) (r : Recency)
    (now : Timestamp) :
    eventValue? v ⟨f, .absent, r, now⟩ name field category = none ∧
    ∀ u : Json, u.isNull = false →
      ∃ x, eventValue? v ⟨f, x, r, now⟩ name field category = some u := by
  obtain ⟨⟨event, hevent, hmatches⟩, p, rfl, hp⟩ := h
  have hsource := Frame.source_of_eventName? hevent
  have hread := eventValue?_of_matches hevent hmatches (some p)
  constructor
  · rw [hread]
    exact lookup_absent hp hsource
  · intro u hu
    obtain ⟨x, hx⟩ := exists_externals hp hsource hu
    exact ⟨x, (hread x r now).trans hx⟩

/-- **An expression over events reads its own frame and nothing else, precisely unless it looks past
the frame.** Its value is then the same beside all documents, and is the default or held by the
frame. If it does look past the frame, both fail: there are documents that change the value, and
documents that the value is taken from. -/
theorem event_own_frame_iff (v : Vocabulary) (cs : Combiners) (f : Frame) (r : Recency)
    (now : Timestamp) (name : String) (field category : Option String) (default : Option Json) :
    let value x := eval v cs ⟨f, x, r, now⟩ (.event name field category default)
    ((∀ x x', value x = value x') ↔ ¬ LooksPast v f name field category) ∧
    ((∀ x u, value x = some u → default = some u ∨ f.Holds u) ↔
      ¬ LooksPast v f name field category) := by
  intro value
  have hvalue (x : Externals) :
      value x = (eventValue? v ⟨f, x, r, now⟩ name field category).or default := by
    simp only [value, eval]
  obtain ⟨other, hnull, hdefault, hholds⟩ := f.exists_not_holds default
  have hother (h : LooksPast v f name field category) : ∃ x, value x = some other := by
    obtain ⟨x, hx⟩ := (eventValue?_of_looksPast h r now).2 other hnull
    exact ⟨x, by rw [hvalue, hx, Option.some_or]⟩
  refine ⟨⟨?_, ?_⟩, ?_, ?_⟩
  · intro hsame hpast
    obtain ⟨x, hx⟩ := hother hpast
    have habsent : value .absent = default := by
      rw [hvalue, (eventValue?_of_looksPast hpast r now).1, Option.none_or]
    exact hdefault (by rw [← habsent, hsame .absent x, hx])
  · intro hown x x'
    obtain ⟨found, -, hread⟩ := eventValue?_of_not_looksPast hown
    rw [hvalue, hvalue, hread, hread]
  · intro hheld hpast
    obtain ⟨x, hx⟩ := hother hpast
    rcases hheld x other hx with h | h
    · exact hdefault h
    · exact hholds h
  · intro hown x u hu
    obtain ⟨found, hfound, hread⟩ := eventValue?_of_not_looksPast hown
    rw [hvalue, hread] at hu
    cases found with
    | none => exact .inl hu
    | some w => exact .inr (hfound u hu)

theorem event_own_frame_iff_docked :
    let f : Frame := ⟨.journal, some "Docked", ⟨0, 0⟩, .object [("pad", .number .one)]⟩
    let value x := eval ⟨[], []⟩ .absent ⟨f, x, .empty, ⟨0, 0⟩⟩
      (.event "Docked" (some "pad") none (some (.number .zero)))
    ¬ LooksPast ⟨[], []⟩ f "Docked" (some "pad") none ∧
    (∀ x, value x = some (.number .one)) ∧ f.Holds (.number .one) := by
  intro f value
  have hown : ¬ LooksPast ⟨[], []⟩ f "Docked" (some "pad") none := by
    rintro ⟨-, p, hp, hleaves⟩
    cases hp
    exact absurd hleaves (by unfold Path.LeavesFrame; decide)
  obtain ⟨hsame, hheld⟩ := event_own_frame_iff ⟨[], []⟩ .absent f .empty ⟨0, 0⟩ "Docked"
    (some "pad") none (some (.number .zero))
  have hvalue : value .absent = some (.number .one) := by
    simp only [value, eval]
    rfl
  refine ⟨hown, fun x => (hsame.mpr hown x .absent).trans hvalue, ?_⟩
  rcases hheld.mpr hown .absent _ hvalue with hdefault | hholds
  · cases hdefault
  · exact hholds

/-- A catalog with a signal that asks for a field of landings in the persisted state. -/
def landings : Catalog where
  version := 1
  vocabulary := ⟨[], []⟩
  signals := [{
    id := "pad"
    type := .number
    values := []
    default := none
    description := none
    expr := .event "Docked" (some "state.pad") none none }]

/-- The number that the signal reads on an empty frame is that of the persisted state. -/
theorem state_read_for_field :
    landings.Accepted ∧
    let f : Frame := ⟨.journal, some "Docked", ⟨0, 0⟩, .object []⟩
    let x : Externals := ⟨some (.object [("pad", .number .one)]), none⟩
    (∃ s ∈ landings.signals, s.expr = .event "Docked" (some "state.pad") none none) ∧
    ∀ cs r now,
      let value x := eval landings.vocabulary cs ⟨f, x, r, now⟩
        (.event "Docked" (some "state.pad") none none)
      value x = some (.number .one) ∧ value .absent = none ∧ ¬ f.Holds (.number .one) := by
  have hfault : landings.fault?.isNone = true := by decide +kernel
  refine ⟨Option.isNone_iff_eq_none.mp hfault, ⟨_, List.mem_singleton_self _, rfl⟩, ?_⟩
  intro cs r now
  refine ⟨by simp only [eval]; rfl, by simp only [eval]; rfl, ?_⟩
  rintro (_ | @⟨segments, _, hwalk⟩)
  cases segments with
  | nil => cases hwalk
  | cons s rest => cases hwalk

end Expr

end Telltale
