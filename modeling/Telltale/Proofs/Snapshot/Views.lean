import Telltale.Proofs.Snapshot.Diagnostics

/-!
# The views of a snapshot

What a snapshot answers for an identifier, what is derived for that signal alone, whether it stands
in, and what the diagnostics tell of it are four views of one reading.

* `Snapshot.noted?` — looking an entry up by its noted place finds the entry that a search finds,
  since identifiers differ.
* `Signal.Conforms`, `Signal.refusal` — a value conforms, or this is what is told of it.
* `value?_read_eq_some_iff`, `read_eq_refused_iff` — when a signal is derived, and when refused.
* `views_agree` — the views of an accepted catalog agree, on every scene.
-/

namespace Telltale

/-! ## Noted places -/

/-- The entry at the noted place of an identifier. -/
def Snapshot.noted? (snapshot : Snapshot) (id : String) : Option Entry :=
  (Table.get? (Table.places (snapshot.map (·.id))) id).bind fun i => snapshot[i]?

/-! ## Readings -/

/-- A value is accepted, perhaps in another form. -/
def Signal.Conforms (s : Signal) (v : Json) : Prop := ∃ w, s.conform v = .accepted w

/-- What is told of a value that does not conform. -/
def Signal.refusal (s : Signal) (v : Json) : Diagnostic :=
  if s.type = .enum then .undeclared s.id v else .wrongType s.id s.type v

theorem Signal.conform_of_not_conforms {s : Signal} {v : Json} (h : ¬ s.Conforms v) :
    s.conform v = if s.type = .enum then .undeclared v else .wrongType v := by
  have haccepted : ∀ w, s.conform v ≠ .accepted w := fun w hw => h ⟨w, hw⟩
  unfold conform at haccepted ⊢
  cases ht : s.type with
  | enum =>
    simp only [ht] at haccepted
    cases hd : s.declared? v with
    | some d => exact absurd rfl (hd ▸ haccepted d.value)
    | none => rfl
  | bool =>
    simp only [ht] at haccepted
    exact (conformBool_cases v).resolve_left fun ⟨w, hw⟩ => haccepted w hw
  | number | string | array =>
    simp only [ht] at haccepted ⊢
    split
    · next hv => exact absurd (if_pos hv) (haccepted v)
    · rfl

theorem Signal.accept_of_conform {s : Signal} {v w : Json} (h : s.conform v = .accepted w) :
    s.accept v = .derived w := by
  rw [accept, h]

theorem Signal.accept_of_not_conforms {s : Signal} {v : Json} (h : ¬ s.Conforms v) :
    s.accept v = .refused (s.refusal v) := by
  rw [accept, conform_of_not_conforms h, refusal]
  by_cases ht : s.type = .enum
  · rw [if_pos ht, if_pos ht]
  · rw [if_neg ht, if_neg ht]

section Readings

variable {d : Deriver} {scene : Scene} {s : Signal}

/-- The value of the expression of a signal. -/
def Deriver.raw? (d : Deriver) (scene : Scene) (s : Signal) : Option Json :=
  s.expr.eval d.catalog.vocabulary d.combiners scene

theorem read_of_raw?_eq_none (h : d.raw? scene s = none) : d.read scene s = .absent := by
  rw [Deriver.raw?] at h
  rw [Deriver.read, Signal.read, h]

theorem read_of_raw?_eq_some {v : Json} (h : d.raw? scene s = some v) :
    d.read scene s = s.accept v := by
  rw [Deriver.raw?] at h
  rw [Deriver.read, Signal.read, h]

/-- A signal is derived if its expression has a value that conforms. -/
theorem value?_read_eq_some_iff {w : Json} :
    (d.read scene s).value? = some w ↔ ∃ v, d.raw? scene s = some v ∧ s.conform v = .accepted w := by
  cases hraw : d.raw? scene s with
  | none => simp [read_of_raw?_eq_none hraw, Reading.value?]
  | some v =>
    rw [read_of_raw?_eq_some hraw]
    by_cases hv : s.Conforms v
    · obtain ⟨w', hw'⟩ := hv
      simp [Signal.accept_of_conform hw', Reading.value?, hw']
    · rw [Signal.accept_of_not_conforms hv]
      simpa [Reading.value?] using fun hw => hv ⟨w, hw⟩

/-- A signal is refused if its expression has a value that does not conform. -/
theorem read_eq_refused_iff {diagnostic : Diagnostic} :
    d.read scene s = .refused diagnostic ↔
      ∃ v, d.raw? scene s = some v ∧ ¬ s.Conforms v ∧ diagnostic = s.refusal v := by
  cases hraw : d.raw? scene s with
  | none => simp [read_of_raw?_eq_none hraw]
  | some v =>
    rw [read_of_raw?_eq_some hraw]
    by_cases hv : s.Conforms v
    · obtain ⟨w, hw⟩ := hv
      simpa [Signal.accept_of_conform hw] using fun h => absurd ⟨w, hw⟩ h
    · simp [Signal.accept_of_not_conforms hv, hv, eq_comm]

/-! ## Entries and diagnostics -/

theorem value_entry (s : Signal) (r : Reading) :
    (s.entry r).value = (r.value?).getD s.defaultValue := by
  rw [Signal.entry]
  cases r.value? <;> rfl

theorem isFallback_entry (s : Signal) (r : Reading) :
    (s.entry r).isFallback = (r.value?).isNone := by
  rw [Signal.entry]
  cases r.value? <;> rfl

/-- What a snapshot holds for an identifier is what is derived for that signal alone. -/
theorem deriveOne?_eq_value? (d : Deriver) (scene : Scene) (id : String) :
    d.deriveOne? scene id = (d.derive scene).snapshot.value? id := by
  rw [Snapshot.value?, entry?_derive, Option.map_map, Deriver.deriveOne?]
  simp only [Function.comp_def, value_entry]

theorem value?_eq_none_iff {id : String} :
    (d.derive scene).snapshot.value? id = none ↔ id ∉ d.catalog.ids := by
  rw [Snapshot.value?, entry?_derive, Option.map_map, Option.map_eq_none_iff, Catalog.get?,
    List.find?_eq_none]
  simp [Catalog.ids]

/-- The diagnostics of a scene come in the order of the signals. -/
theorem sublist_diagnostics (d : Deriver) (scene : Scene) :
    ((d.derive scene).diagnostics.map (·.signal)).Sublist d.catalog.ids := by
  have hsignal : ∀ (s : Signal) (g : Diagnostic), (d.read scene s).diagnostic? = some g →
      g.signal = s.id := by
    intro s g hg
    cases hread : d.read scene s with
    | derived v => rw [hread] at hg; cases hg
    | absent => rw [hread] at hg; cases hg
    | refused g' =>
      rw [hread] at hg
      cases hg
      exact (of_read_refused hread).1
  have hdiagnostics : (d.derive scene).diagnostics =
      d.catalog.signals.filterMap fun s => (d.read scene s).diagnostic? := by
    simp [Deriver.derive, List.filterMap_map, Function.comp_def]
  rw [hdiagnostics]
  exact sublist_map_filterMap hsignal d.catalog.signals

end Readings

/-- What is derived for one signal, a snapshot and the diagnostics beside it agree on a scene. -/
structure ViewsAgree (d : Deriver) (scene : Scene) : Prop where
  one : ∀ id, d.deriveOne? scene id = (d.derive scene).snapshot.value? id
  unknown : ∀ id, (d.derive scene).snapshot.value? id = none ↔ id ∉ d.catalog.ids
  noted : ∀ id, d.catalog.noted? id = d.catalog.get? id ∧
    (d.derive scene).snapshot.noted? id = (d.derive scene).snapshot.entry? id
  derived_iff : ∀ s ∈ d.catalog.signals, ∀ w,
    (d.derive scene).snapshot.derived? s.id = some w ↔
      ∃ v, d.raw? scene s = some v ∧ s.conform v = .accepted w
  either : ∀ s ∈ d.catalog.signals,
    ((d.derive scene).snapshot.derived? s.id).isSome = !(d.derive scene).snapshot.isFallback s.id
  fallback_iff : ∀ s ∈ d.catalog.signals, (d.derive scene).snapshot.isFallback s.id = true ↔
    d.raw? scene s = none ∨ ∃ v, d.raw? scene s = some v ∧ ¬ s.Conforms v
  fallback_value : ∀ s ∈ d.catalog.signals, (d.derive scene).snapshot.isFallback s.id = true →
    (d.derive scene).snapshot.value? s.id = some s.defaultValue
  diagnostics_in_order : ((d.derive scene).diagnostics.map (·.signal)).Sublist d.catalog.ids
  diagnostics_once : ((d.derive scene).diagnostics.map (·.signal)).Nodup
  mem_diagnostics_iff : ∀ diagnostic, diagnostic ∈ (d.derive scene).diagnostics ↔
    ∃ s ∈ d.catalog.signals, ∃ v, d.raw? scene s = some v ∧ ¬ s.Conforms v ∧
      diagnostic = s.refusal v

/-- **The views of an accepted catalog agree.** What is derived for one identifier is what the
snapshot holds for it; a signal either is derived, from a value of its expression that conforms, or
has its default standing in; and the diagnostics tell, in order and once each, of the signals whose
expression had a value that does not conform. -/
theorem views_agree {c : Catalog} {cs : Combiners} {d : Deriver} (hc : c.Accepted)
    (hd : Deriver.build c cs = .ok d) (scene : Scene) :
    d.catalog = c ∧ d.combiners = cs ∧ ViewsAgree d scene := by
  obtain rfl := eq_of_build hd
  refine ⟨rfl, rfl, ?_⟩
  generalize hdeq : (⟨c, cs⟩ : Deriver) = d
  have hcatalog : d.catalog = c := by rw [← hdeq]
  subst hcatalog
  have hfallback {s : Signal} (hs : s ∈ d.catalog.signals) :
      (d.derive scene).snapshot.isFallback s.id = ((d.read scene s).value?).isNone := by
    rw [Snapshot.isFallback, entry?_of_mem hc scene hs, Option.any_some, isFallback_entry]
  constructor
  case one => exact deriveOne?_eq_value? d scene
  case unknown =>
    intro id
    exact value?_eq_none_iff
  case noted =>
    intro id
    refine ⟨hc.noted?_eq_get? id, Table.find?_eq_of_places ?_⟩
    rw [ids_snapshot]
    exact hc.nodup_ids
  case derived_iff =>
    intro s hs w
    rw [derived?_of_mem hc scene hs, value?_read_eq_some_iff]
  case either =>
    intro s hs
    rw [derived?_of_mem hc scene hs, hfallback hs, Option.not_isNone]
  case fallback_iff =>
    intro s hs
    rw [hfallback hs, Option.isNone_iff_eq_none, Option.eq_none_iff_forall_ne_some]
    simp only [ne_eq, value?_read_eq_some_iff, Signal.Conforms]
    cases d.raw? scene s with
    | none => simp
    | some v => simp
  case fallback_value =>
    intro s hs h
    rw [hfallback hs, Option.isNone_iff_eq_none] at h
    rw [Snapshot.value?, entry?_of_mem hc scene hs, Option.map_some, value_entry, h,
      Option.getD_none]
  case diagnostics_in_order => exact sublist_diagnostics d scene
  case diagnostics_once => exact hc.nodup_ids.sublist (sublist_diagnostics d scene)
  case mem_diagnostics_iff =>
    intro diagnostic
    rw [mem_diagnostics]
    simp only [read_eq_refused_iff]

theorem views_agree_gauges :
    let scene := Scene.telling "level" (.string "full")
    let d : Deriver := ⟨gauges, .absent⟩
    gauges.Accepted ∧ Deriver.build gauges .absent = .ok d ∧ ViewsAgree d scene ∧
    (d.derive scene).snapshot.isFallback "level" = true ∧
    (d.derive scene).diagnostics.map (·.signal) = ["level"] := by
  intro scene d
  have hfault : gauges.fault?.isNone = true := by decide +kernel
  have haccepted : gauges.Accepted := Option.isNone_iff_eq_none.mp hfault
  have hbuild : Deriver.build gauges .absent = .ok d := rfl
  exact ⟨haccepted, hbuild, (views_agree haccepted hbuild scene).2.2, by decide +kernel,
    by decide +kernel⟩

end Telltale
