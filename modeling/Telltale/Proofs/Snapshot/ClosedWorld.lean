import Telltale.Proofs.Signal.Conform
import Telltale.Snapshot

/-!
# The values of a snapshot

A snapshot of an accepted catalog has one entry for each signal, whatever the frame holds and
whatever the combiners hand back.

* `entry_cases` — an entry holds what conforming handed back, or the value that stands in.
* `entry?_derive`, `derived?_derive` — what a snapshot answers for an identifier.
* `derive_closedWorld` — the entry of an enumerated signal is loosely equal to exactly one declared
  value, and it is that value as it is written unless it stands in.
* `derive_takes_iff` — the entry of a signal is a value that the signal takes, except where it
  stands in and the declared default is itself none. Such defaults exist
  (`number_stands_in_for_truth`).
-/

namespace Telltale

/-! ## Entries -/

/-- What is derived is what conforming handed back. -/
theorem conform_of_derived {d : Deriver} {scene : Scene} {s : Signal} {v : Json}
    (h : d.read scene s = .derived v) : ∃ raw, s.conform raw = .accepted v := by
  unfold Deriver.read Signal.read at h
  split at h
  · next raw _ =>
    unfold Signal.accept at h
    split at h
    · next hraw => cases h; exact ⟨raw, hraw⟩
    · cases h
    · cases h
  · cases h

/-- An entry holds what conforming handed back, or the value that stands in. -/
theorem entry_cases (d : Deriver) (scene : Scene) (s : Signal) :
    let e := s.entry (d.read scene s)
    e.id = s.id ∧
    ((e.isFallback = false ∧ ∃ raw, s.conform raw = .accepted e.value) ∨
      (e.isFallback = true ∧ e.value = s.defaultValue)) := by
  cases h : d.read scene s with
  | derived v => exact ⟨rfl, .inl ⟨rfl, conform_of_derived h⟩⟩
  | absent => exact ⟨rfl, .inr ⟨rfl, rfl⟩⟩
  | refused diagnostic => exact ⟨rfl, .inr ⟨rfl, rfl⟩⟩

/-- The snapshot has the entries of the signals, in order. -/
theorem snapshot_derive (d : Deriver) (scene : Scene) :
    (d.derive scene).snapshot = d.catalog.signals.map fun s => s.entry (d.read scene s) := by
  simp [Deriver.derive, Function.comp_def]

theorem id_entry (d : Deriver) (scene : Scene) (s : Signal) :
    (s.entry (d.read scene s)).id = s.id :=
  (entry_cases d scene s).1

theorem ids_snapshot (d : Deriver) (scene : Scene) :
    (d.derive scene).snapshot.map (·.id) = d.catalog.ids := by
  simp [snapshot_derive, Catalog.ids, Function.comp_def, id_entry]

/-- The entry of an identifier is that of the signal. -/
theorem entry?_derive (d : Deriver) (scene : Scene) (id : String) :
    (d.derive scene).snapshot.entry? id =
      (d.catalog.get? id).map fun s => s.entry (d.read scene s) := by
  rw [Snapshot.entry?, snapshot_derive, List.find?_map, Catalog.get?]
  simp only [Function.comp_def, id_entry]

/-- What is derived for an identifier is what was read of the signal. -/
theorem derived?_derive (d : Deriver) (scene : Scene) (id : String) :
    (d.derive scene).snapshot.derived? id =
      (d.catalog.get? id).bind fun s => (d.read scene s).value? := by
  rw [Snapshot.derived?, entry?_derive]
  cases d.catalog.get? id with
  | none => rfl
  | some s =>
    rw [Option.map_some, Option.bind_some, Signal.entry]
    cases (d.read scene s).value? <;> rfl

/-- A signal of an accepted catalog has one entry. -/
theorem filter_snapshot {d : Deriver} (hc : d.catalog.Accepted) (scene : Scene) {s : Signal}
    (hs : s ∈ d.catalog.signals) :
    (d.derive scene).snapshot.filter (·.id == s.id) = [s.entry (d.read scene s)] := by
  rw [snapshot_derive, List.filter_map]
  simp only [Function.comp_def, id_entry]
  rw [hc.filter_id hs, List.map_singleton]

/-- The entry of a signal of an accepted catalog is found by its identifier. -/
theorem entry?_of_mem {d : Deriver} (hc : d.catalog.Accepted) (scene : Scene) {s : Signal}
    (hs : s ∈ d.catalog.signals) :
    (d.derive scene).snapshot.entry? s.id = some (s.entry (d.read scene s)) := by
  rw [entry?_derive, hc.get?_of_mem hs, Option.map_some]

/-- What is derived for a signal of an accepted catalog is what was read of it. -/
theorem derived?_of_mem {d : Deriver} (hc : d.catalog.Accepted) (scene : Scene) {s : Signal}
    (hs : s ∈ d.catalog.signals) :
    (d.derive scene).snapshot.derived? s.id = (d.read scene s).value? := by
  rw [derived?_derive, hc.get?_of_mem hs, Option.bind_some]

/-- The catalog and the combiners that a deriver was built of. -/
theorem eq_of_build {c : Catalog} {cs : Combiners} {d : Deriver} (h : Deriver.build c cs = .ok d) :
    d = ⟨c, cs⟩ := by
  unfold Deriver.build at h
  split at h
  · cases h
  · cases h; rfl

/-! ## The closed world of enumerated signals -/

/-- A snapshot reports on the signals of a catalog, one entry each and in order, and every
enumerated signal has one of its declared values: the entry is loosely equal to that one alone, and
it is that one as it is written unless it stands in. -/
structure ClosedWorld (c : Catalog) (snapshot : Snapshot) : Prop where
  ids : snapshot.map (·.id) = c.ids
  nodup : c.ids.Nodup
  entry : ∀ s ∈ c.signals, ∃ e, snapshot.filter (·.id == s.id) = [e] ∧
    snapshot.entry? s.id = some e ∧
    (s.type = .enum → ∃ v, s.values.filter (·.value.looseEq e.value) = [v] ∧
      (e.isFallback = false → e.value = v.value))

/-- The value of an enumerated signal is loosely equal to one declared value. -/
theorem declared_of_entry {d : Deriver} {scene : Scene} {s : Signal} (hs : s.WellFormed)
    (ht : s.type = .enum) :
    let e := s.entry (d.read scene s)
    ∃ v, s.values.filter (·.value.looseEq e.value) = [v] ∧
      (e.isFallback = false → e.value = v.value) := by
  intro e
  rcases (entry_cases d scene s).2 with ⟨_, raw, hraw⟩ | ⟨hfallback, hvalue⟩
  · obtain ⟨v, hv, -, heq⟩ := Signal.conform_enum ht hraw
    refine ⟨v, Signal.filter_declared hs hv ?_, fun _ => heq⟩
    rw [heq]
    exact Json.looseEq_refl v.value
  · obtain ⟨w, hw⟩ := Signal.conform_defaultValue hs
    obtain ⟨v, hv, hloose, -⟩ := Signal.conform_enum ht hw
    rw [← hvalue] at hloose
    refine ⟨v, Signal.filter_declared hs hv hloose, fun hderived => ?_⟩
    rw [hfallback] at hderived
    cases hderived

/-- **The closed world, from the catalog to the snapshot**, over every scene and all combiners.
Whatever a text brings is accepted (`Catalog.accepted_of_ofText`). -/
theorem derive_closedWorld {c : Catalog} {cs : Combiners} {d : Deriver} (hc : c.Accepted)
    (hd : Deriver.build c cs = .ok d) (scene : Scene) :
    ClosedWorld c (d.derive scene).snapshot := by
  have hcatalog : d.catalog = c := by rw [eq_of_build hd]
  subst hcatalog
  refine ⟨ids_snapshot d scene, hc.nodup_ids, fun s hs => ?_⟩
  have hfilter := filter_snapshot hc scene hs
  refine ⟨_, hfilter, ?_, declared_of_entry (hc.wellFormed hs)⟩
  rw [Snapshot.entry?, ← List.head?_filter, hfilter, List.head?_cons]

/-- A catalog of one signal, whose default is not written as it is declared. -/
def levels : Catalog where
  version := 1
  vocabulary := ⟨[], []⟩
  signals := [{
    id := "level"
    type := .enum
    values := [⟨.number .zero, none⟩, ⟨.number .one, none⟩]
    default := some (.number (.double (.ofInt 1)))
    description := none
    expr := .path "level" none }]

theorem accepted_levels : levels.Accepted := by
  have hfault : levels.fault?.isNone = true := by decide +kernel
  exact Option.isNone_iff_eq_none.mp hfault

theorem build_levels : Deriver.build levels .absent = .ok ⟨levels, .absent⟩ := rfl

/-- A scene in which a level is given, but not as it is declared. -/
def Scene.raised : Scene where
  frame := ⟨.dashboard, none, ⟨0, 0⟩, .object [("level", .number (.double (.ofInt 1)))]⟩
  externals := .absent
  recency := .empty
  now := ⟨0, 0⟩

theorem derive_closedWorld_levels :
    levels.Accepted ∧ Deriver.build levels .absent = .ok ⟨levels, .absent⟩ ∧
    (∀ scene, ClosedWorld levels (Deriver.derive ⟨levels, .absent⟩ scene).snapshot) ∧
    ∃ e, (Deriver.derive ⟨levels, .absent⟩ .raised).snapshot.entry? "level" = some e ∧
      e.isFallback = false ∧ e.value = .number .one := by
  have hworld (scene : Scene) := derive_closedWorld accepted_levels build_levels scene
  refine ⟨accepted_levels, build_levels, hworld, ?_⟩
  obtain ⟨e, -, hentry, hvalue⟩ := (hworld .raised).entry _ (List.mem_singleton_self _)
  obtain ⟨v, hdeclared, hderived⟩ := hvalue rfl
  have hread : ((Deriver.derive ⟨levels, .absent⟩ .raised).snapshot.entry? "level").any
      (fun e => !e.isFallback && !(Json.number .zero).looseEq e.value) = true := by decide +kernel
  rw [hentry, Option.any_some, Bool.and_eq_true, Bool.not_eq_true', Bool.not_eq_true'] at hread
  obtain ⟨hfallback, hzero⟩ := hread
  refine ⟨e, hentry, hfallback, (hderived hfallback).trans ?_⟩
  -- of the two declared values it is not the first one
  obtain ⟨hv, hloose⟩ := List.mem_filter.mp (hdeclared ▸ List.mem_singleton_self v)
  rcases List.mem_cons.mp hv with rfl | hv
  · rw [hzero] at hloose
    cases hloose
  · rw [List.mem_singleton.mp hv]

/-! ## The values that signals take -/

/-- The declared default is accepted but no value that the signal takes: it is a number for a truth
value, or an enumerated value that is not written as it is declared. -/
def Signal.HasForeignDefault (s : Signal) : Prop :=
  ∃ v, s.default = some v ∧
    ((s.type = .bool ∧ v.isNumber = true) ∨ (s.type = .enum ∧ ∀ d ∈ s.values, d.value ≠ v))

theorem takes_defaultValue_iff_not_foreign {s : Signal} (hs : s.WellFormed) :
    s.Takes s.defaultValue ↔ ¬ s.HasForeignDefault := by
  rw [Signal.takes_defaultValue_iff hs, Signal.HasForeignDefault, not_exists]
  refine forall_congr' fun v => ?_
  rw [not_and]
  refine imp_congr_right fun hv => ?_
  obtain ⟨w, hw⟩ := hs.default_conforms v hv
  rw [← Signal.not_takes_iff hw, Classical.not_not]

/-- **The entry of a signal is a value that the signal takes**, which is to say that it conforms and
stays as it is, exactly if it does not stand in for a foreign default. -/
theorem derive_takes_iff {c : Catalog} {cs : Combiners} {d : Deriver} (hc : c.Accepted)
    (hd : Deriver.build c cs = .ok d) (scene : Scene) :
    ∀ s ∈ c.signals, ∃ e, (d.derive scene).snapshot.filter (·.id == s.id) = [e] ∧
      (s.conform e.value = .accepted e.value ↔ s.Takes e.value) ∧
      (s.Takes e.value ↔ ¬ (e.isFallback = true ∧ s.HasForeignDefault)) := by
  have hcatalog : d.catalog = c := by rw [eq_of_build hd]
  subst hcatalog
  intro s hs
  have hwell := hc.wellFormed hs
  refine ⟨_, filter_snapshot hc scene hs, Signal.conform_eq_self_iff hwell, ?_⟩
  rcases (entry_cases d scene s).2 with ⟨hderived, raw, hraw⟩ | ⟨hfallback, hvalue⟩
  · simp [Signal.takes_of_conform hraw, hderived]
  · rw [hvalue, takes_defaultValue_iff_not_foreign hwell, hfallback]
    simp

theorem derive_takes_iff_levels :
    levels.Accepted ∧ Deriver.build levels .absent = .ok ⟨levels, .absent⟩ ∧
    ∀ scene, ∀ s ∈ levels.signals, ∃ e,
      (Deriver.derive ⟨levels, .absent⟩ scene).snapshot.filter (·.id == s.id) = [e] ∧
      (s.conform e.value = .accepted e.value ↔ s.Takes e.value) ∧
      (s.Takes e.value ↔ ¬ (e.isFallback = true ∧ s.HasForeignDefault)) :=
  ⟨accepted_levels, build_levels, fun scene =>
    derive_takes_iff accepted_levels build_levels scene⟩

/-- A scene with nothing in it. -/
def Scene.blank : Scene := ⟨⟨.dashboard, none, ⟨0, 0⟩, .null⟩, .absent, .empty, ⟨0, 0⟩⟩

/-- A text brings a signal of truth values that a number stands in for: the default passes the
check, but is not replaced as a computed value would be. -/
theorem number_stands_in_for_truth :
    ∃ c d, Catalog.ofText ("signals:\n- id: s\n  type: bool\n  default: 1\n" ++
        "  derive:\n    op: path\n    path: x\n") = .ok c ∧
      Deriver.build c .absent = .ok d ∧
      ∃ s ∈ c.signals, ∃ e ∈ (d.derive .blank).snapshot, e.id = s.id ∧ s.type = .bool ∧
        e.value = .number .one ∧ ¬ s.Takes e.value ∧
        s.conform e.value = .accepted (.bool true) := by
  have hparse : (Catalog.ofText ("signals:\n- id: s\n  type: bool\n  default: 1\n" ++
      "  derive:\n    op: path\n    path: x\n")).toOption.any (fun c =>
        (c.missingCombiner? .absent).isNone && c.signals.any fun s =>
          decide (s.type = .bool) && (Deriver.derive ⟨c, .absent⟩ .blank).snapshot.any fun e =>
            e.id == s.id && decide (e.value.number? = some .one)) = true := by
    decide +kernel
  obtain ⟨c, hc, hentry⟩ := exists_of_any_toOption hparse
  simp only [Bool.and_eq_true, List.any_eq_true, decide_eq_true_eq, beq_iff_eq] at hentry
  obtain ⟨hbuild, s, hs, ht, e, he, hid, hvalue⟩ := hentry
  have hone : e.value = .number .one := by
    cases hv : e.value <;> rw [hv] at hvalue <;> cases hvalue
    rfl
  refine ⟨c, ⟨c, .absent⟩, hc, ?_, s, hs, e, he, hid, ht, hone, ?_, ?_⟩
  · rw [Deriver.build, Option.isNone_iff_eq_none.mp hbuild]
  · rw [hone, Signal.Takes, ht]
    rintro ⟨b, hb⟩
    cases hb
  · have hzero : Number.one.sameValue .zero = false := by decide +kernel
    rw [hone, Signal.conform, ht]
    simp [Signal.conformBool, hzero, Number.sameValue_refl]

end Telltale
