import Telltale.Catalog.Document
import Telltale.Proofs.Json.Equality
import Telltale.Proofs.Table.Pairs

/-!
# Accepted catalogs

What the checks of a catalog promise of it. A catalog is accepted if it has no fault, and every
catalog that a text brings is accepted (`Catalog.accepted_of_ofText`).

* `Expr.fault?_eq_none_iff` — an expression has no fault if nothing in it has one of its own.
* `Catalog.signalsFault?_eq_none_iff` — signals in a row have no fault if none of them has one and
  their identifiers are new and different.
* `Catalog.Accepted.nodup_ids` — the signals have different identifiers.
* `Catalog.noted?` — the signal at the noted place of an identifier, which is the one that a search
  finds (`Catalog.Accepted.noted?_eq_get?`).
* `Signal.WellFormed` — what the checks promise of one signal: an enumerated one declares values, no
  two of them loosely equal, and a declared default conforms (`Catalog.Accepted.wellFormed`).
-/

namespace Telltale

/-! ## Results that may be faults, and lists -/

/-- A result behind another one is there only if that one is. -/
theorem exists_of_bind_eq_ok {x : Except ε α} {f : α → Except ε β} {b : β}
    (h : x >>= f = .ok b) : ∃ a, x = .ok a ∧ f a = .ok b := by
  cases x with
  | error e => cases h
  | ok a => exact ⟨a, rfl, h⟩

/-- Rewording a fault leaves results alone. -/
theorem eq_ok_of_mapError {x : Except ε α} {f : ε → ε'} {a : α} (h : x.mapError f = .ok a) :
    x = .ok a := by
  cases x with
  | error e => cases h
  | ok b => cases h; rfl

/-- Mapping a result leaves it where it is. -/
theorem exists_of_map_eq_ok {x : Except ε α} {f : α → β} {b : β} (h : x.map f = .ok b) :
    ∃ a, x = .ok a ∧ f a = b := by
  cases x with
  | error e => cases h
  | ok a => cases h; exact ⟨a, rfl, rfl⟩

/-- A result that passes a test is there. -/
theorem exists_of_any_toOption {x : Except ε α} {p : α → Bool} (h : x.toOption.any p = true) :
    ∃ a, x = .ok a ∧ p a = true := by
  cases x with
  | error e => cases h
  | ok a => exact ⟨a, rfl, h⟩

/-- If no two members of a list pass a test, the one that does is all that passes. -/
theorem filter_eq_singleton {l : List α} {p : α → Bool} {a : α}
    (hp : l.Pairwise fun x y => ¬ (p x = true ∧ p y = true)) (ha : a ∈ l) (hpa : p a = true) :
    l.filter p = [a] := by
  induction l with
  | nil => cases ha
  | cons b rest ih =>
    obtain ⟨hb, hrest⟩ := List.pairwise_cons.mp hp
    rcases List.mem_cons.mp ha with rfl | ha
    · have hnil : rest.filter p = [] :=
        List.filter_eq_nil_iff.mpr fun x hx hpx => hb x hx ⟨hpa, hpx⟩
      rw [List.filter_cons_of_pos hpa, hnil]
    · have hpb : ¬ p b = true := fun hpb => hb a ha ⟨hpb, hpa⟩
      rw [List.filter_cons_of_neg hpb, ih hrest ha]

/-! ## Expressions -/

/-- A bit of a group is a bit of a word, at the path of the group. -/
theorem Vocabulary.of_resolveBit? {v : Vocabulary} {group path : String} {bit : BitRef} {i : Nat}
    (h : v.resolveBit? group bit = some (path, i)) :
    ∃ g, v.group? group = some g ∧ path = g.path ∧ i ≤ maxBit := by
  unfold resolveBit? at h
  obtain ⟨g, hgroup, h⟩ := Option.bind_eq_some_iff.mp h
  obtain ⟨j, -, h⟩ := Option.bind_eq_some_iff.mp h
  split at h
  · next hj =>
    cases h
    exact ⟨g, hgroup, rfl, hj⟩
  · cases h

namespace Expr

variable {v : Vocabulary}

/-- An expression has no fault if nothing in it has one of its own. -/
theorem fault?_eq_none_iff {e : Expr} :
    e.fault? v = none ↔ ∀ t ∈ e.subterms, ownFault? v t = none :=
  List.findSome?_eq_none_iff

theorem subtermsOfTerms_eq_flatMap (terms : List Expr) :
    subtermsOfTerms terms = terms.flatMap subterms := by
  induction terms with
  | nil => rfl
  | cons e rest ih => rw [subtermsOfTerms, ih, List.flatMap_cons]

theorem subtermsOfCases_eq_flatMap (cases : List (Expr × Json)) :
    subtermsOfCases cases = cases.flatMap fun c => c.1.subterms := by
  induction cases with
  | nil => rfl
  | cons c rest ih => rw [subtermsOfCases, ih, List.flatMap_cons]

theorem ownFault?_of_mem_subtermsOfTerms {terms : List Expr} (h : ∀ e ∈ terms, e.fault? v = none) :
    ∀ t ∈ subtermsOfTerms terms, ownFault? v t = none := by
  intro t ht
  rw [subtermsOfTerms_eq_flatMap] at ht
  obtain ⟨e, he, ht⟩ := List.mem_flatMap.mp ht
  exact fault?_eq_none_iff.mp (h e he) t ht

theorem fault?_all {terms : List Expr} (hne : terms ≠ []) (h : ∀ e ∈ terms, e.fault? v = none) :
    (Expr.all terms).fault? v = none := by
  rw [fault?_eq_none_iff, subterms, List.forall_mem_cons]
  refine ⟨?_, ownFault?_of_mem_subtermsOfTerms h⟩
  simp only [ownFault?, List.isEmpty_iff, hne, if_false]

theorem fault?_any {terms : List Expr} (hne : terms ≠ []) (h : ∀ e ∈ terms, e.fault? v = none) :
    (Expr.any terms).fault? v = none := by
  rw [fault?_eq_none_iff, subterms, List.forall_mem_cons]
  refine ⟨?_, ownFault?_of_mem_subtermsOfTerms h⟩
  simp only [ownFault?, List.isEmpty_iff, hne, if_false]

theorem fault?_not {e : Expr} (h : e.fault? v = none) : (Expr.not e).fault? v = none := by
  rw [fault?_eq_none_iff, subterms, List.forall_mem_cons]
  exact ⟨rfl, fault?_eq_none_iff.mp h⟩

end Expr

/-! ## Signals -/

namespace Signal

/-- What the checks of a catalog promise of a signal. -/
structure WellFormed (s : Signal) : Prop where
  values_ne_nil : s.type = .enum → s.values ≠ []
  distinct : s.values.Pairwise fun v w => v.value.looseEq w.value = false
  default_conforms : ∀ v, s.default = some v → ∃ w, s.conform v = .accepted w

/-- No declared value is loosely equal to an earlier one. -/
theorem pairwise_of_duplicate? {earlier values : List EnumValue}
    (h : duplicate? earlier values = none) :
    values.Pairwise (fun v w => v.value.looseEq w.value = false) ∧
    ∀ v ∈ earlier, ∀ w ∈ values, v.value.looseEq w.value = false := by
  induction values generalizing earlier with
  | nil => simp
  | cons w rest ih =>
    unfold duplicate? at h
    split at h
    · cases h
    · next hw =>
      simp only [List.any_eq_true, not_exists, not_and, Bool.not_eq_true] at hw
      obtain ⟨hpairs, hearlier⟩ := ih h
      refine ⟨List.pairwise_cons.mpr ⟨fun w' hw' => hearlier w (by simp) w' hw', hpairs⟩, ?_⟩
      intro v hv w' hw'
      rcases List.mem_cons.mp hw' with rfl | hw'
      · exact hw v hv
      · exact hearlier v (by simp [hv]) w' hw'

theorem distinct_of_valuesFault? {s : Signal} (h : s.valuesFault? = none) :
    (s.type = .enum → s.values ≠ []) ∧
    s.values.Pairwise fun v w => v.value.looseEq w.value = false := by
  unfold valuesFault? at h
  split at h
  · split at h
    · cases h
    · next hne =>
      exact ⟨fun _ hnil => hne (by rw [hnil]; rfl),
        (pairwise_of_duplicate? (Option.map_eq_none_iff.mp h)).1⟩
  · next htype =>
    split at h
    · next hnil =>
      rw [List.isEmpty_iff.mp hnil]
      exact ⟨fun henum => absurd henum htype, .nil⟩
    · cases h

theorem default_conforms_of_defaultFault? {s : Signal} (h : s.defaultFault? = none) (v : Json)
    (hv : s.default = some v) : ∃ w, s.conform v = .accepted w := by
  unfold defaultFault? at h
  rw [hv, Option.bind_some] at h
  split at h
  · next w hw => exact ⟨w, hw⟩
  · cases h

/-- A signal without a fault passes each of the checks. -/
theorem checks_of_fault? {vocabulary : Vocabulary} {s : Signal} (h : s.fault? vocabulary = none) :
    Identifier.isValid s.id = true ∧ s.valuesFault? = none ∧ s.defaultFault? = none ∧
    s.expr.fault? vocabulary = none ∧ s.expr.outputs.literals.findSome? s.outputFault? = none := by
  unfold fault? at h
  split at h
  · cases h
  · next hid =>
    simp only [Option.or_eq_none_iff, Option.map_eq_none_iff] at h
    obtain ⟨hvalues, hdefault, hexpr, houtputs⟩ := h
    exact ⟨by simpa using hid, hvalues, hdefault, hexpr, houtputs⟩

theorem wellFormed_of_fault? {vocabulary : Vocabulary} {s : Signal}
    (h : s.fault? vocabulary = none) : s.WellFormed := by
  obtain ⟨-, hvalues, hdefault, -, -⟩ := checks_of_fault? h
  obtain ⟨hne, hdistinct⟩ := distinct_of_valuesFault? hvalues
  exact ⟨hne, hdistinct, default_conforms_of_defaultFault? hdefault⟩

end Signal

/-! ## Catalogs -/

namespace Catalog

/-- The catalog has no fault. -/
def Accepted (c : Catalog) : Prop := c.fault? = none

theorem has_iff_mem_ids {c : Catalog} {id : String} : c.has id = true ↔ id ∈ c.ids := by
  simp [has, ids]

/-- The noted place of an identifier. -/
def place? (c : Catalog) (id : String) : Option Nat := Table.get? (Table.places c.ids) id

/-- The signal at the noted place of an identifier. -/
def noted? (c : Catalog) (id : String) : Option Signal :=
  (Table.get? (Table.places c.ids) id).bind fun i => c.signals[i]?

/-- The check hands back the catalog itself, and only if it is accepted. -/
theorem eq_of_check {c c' : Catalog} (h : c.check = .ok c') : c' = c ∧ c.Accepted := by
  unfold check at h
  split at h
  · cases h
  · next hfault => cases h; exact ⟨rfl, hfault⟩

/-- The catalog of a text is the one that stands in it. -/
theorem ofText_eq_check {text : String} {c : Catalog}
    (h : (Yaml.Node.ofText? text).bind ofNode? = some c) :
    ofText text = c.check.mapError .fault := by
  unfold ofText
  rw [h]

/-- Every catalog that a text brings is accepted. -/
theorem accepted_of_ofText {text : String} {c : Catalog} (h : ofText text = .ok c) :
    c.Accepted := by
  unfold ofText at h
  split at h
  · cases h
  · obtain ⟨rfl, haccepted⟩ := eq_of_check (eq_ok_of_mapError h)
    exact haccepted

section SignalsFault

variable {vocabulary : Vocabulary} {earlier : List String} {s : Signal} {before rest : List Signal}

theorem signalsFault?_cons_of_mem (h : s.id ∈ earlier) :
    signalsFault? vocabulary earlier (s :: rest) = some (.duplicateSignal s.id) := by
  rw [signalsFault?, if_pos (by simpa using h)]

theorem signalsFault?_cons_of_fault {fault : SignalFault} (hnew : s.id ∉ earlier)
    (h : s.fault? vocabulary = some fault) :
    signalsFault? vocabulary earlier (s :: rest) = some (.signal s.id fault) := by
  rw [signalsFault?, if_neg (by simpa using hnew), h]

theorem signalsFault?_cons_of_none (hnew : s.id ∉ earlier) (h : s.fault? vocabulary = none) :
    signalsFault? vocabulary earlier (s :: rest) =
      signalsFault? vocabulary (s.id :: earlier) rest := by
  rw [signalsFault?, if_neg (by simpa using hnew), h]

/-- A first signal without a fault is new, and has no fault itself. -/
theorem signalsFault?_cons_eq_none (h : signalsFault? vocabulary earlier (s :: rest) = none) :
    s.id ∉ earlier ∧ s.fault? vocabulary = none ∧
      signalsFault? vocabulary (s.id :: earlier) rest = none := by
  by_cases hs : s.id ∈ earlier
  · rw [signalsFault?_cons_of_mem hs] at h
    cases h
  · cases hfault : s.fault? vocabulary with
    | some fault =>
      rw [signalsFault?_cons_of_fault hs hfault] at h
      cases h
    | none =>
      rw [signalsFault?_cons_of_none hs hfault] at h
      exact ⟨hs, rfl, h⟩

/-- Signals in a row have no fault if they have new and different identifiers, and no fault
themselves. -/
theorem signalsFault?_eq_none_iff {signals : List Signal} :
    signalsFault? vocabulary earlier signals = none ↔
      (signals.map (·.id)).Nodup ∧ (∀ s ∈ signals, s.id ∉ earlier) ∧
      ∀ s ∈ signals, s.fault? vocabulary = none := by
  induction signals generalizing earlier with
  | nil => simp [signalsFault?]
  | cons s rest ih =>
    rw [List.map_cons, List.nodup_cons, List.forall_mem_cons, List.forall_mem_cons]
    constructor
    · intro h
      obtain ⟨hs, hfault, h⟩ := signalsFault?_cons_eq_none h
      obtain ⟨hnodup, hfresh, hfaults⟩ := ih.mp h
      refine ⟨⟨?_, hnodup⟩, ⟨hs, ?_⟩, hfault, hfaults⟩
      · intro hmem
        obtain ⟨s', hs', heq⟩ := List.mem_map.mp hmem
        exact hfresh s' hs' (by simp [heq])
      · exact fun s' hs' hmem => hfresh s' hs' (List.mem_cons_of_mem _ hmem)
    · rintro ⟨⟨hid, hnodup⟩, ⟨hs, hfresh⟩, hfault, hfaults⟩
      rw [signalsFault?_cons_of_none hs hfault]
      refine ih.mpr ⟨hnodup, fun s' hs' hmem => ?_, hfaults⟩
      rcases List.mem_cons.mp hmem with heq | hmem
      · exact hid (List.mem_map.mpr ⟨s', hs', heq⟩)
      · exact hfresh s' hs' hmem

/-- Signals without a fault leave the search to those behind them. -/
theorem signalsFault?_append (h : signalsFault? vocabulary earlier before = none) :
    signalsFault? vocabulary earlier (before ++ rest) =
      signalsFault? vocabulary ((before.map (·.id)).reverse ++ earlier) rest := by
  induction before generalizing earlier with
  | nil => rfl
  | cons s before ih =>
    obtain ⟨hs, hfault, h⟩ := signalsFault?_cons_eq_none h
    rw [List.cons_append, signalsFault?_cons_of_none hs hfault, ih h]
    simp

end SignalsFault

namespace Accepted

variable {c : Catalog}

theorem signalsFault?_eq_none (h : c.Accepted) :
    signalsFault? c.vocabulary [] c.signals = none :=
  (Option.or_eq_none_iff.mp h).2

/-- The signals of an accepted catalog have different identifiers. -/
theorem nodup_ids (h : c.Accepted) : c.ids.Nodup :=
  (signalsFault?_eq_none_iff.mp h.signalsFault?_eq_none).1

/-- The signals of an accepted catalog have no fault. -/
theorem fault?_eq_none (h : c.Accepted) {s : Signal} (hs : s ∈ c.signals) :
    s.fault? c.vocabulary = none :=
  (signalsFault?_eq_none_iff.mp h.signalsFault?_eq_none).2.2 s hs

/-- A signal of an accepted catalog is the only one with its identifier. -/
theorem filter_id (h : c.Accepted) {s : Signal} (hs : s ∈ c.signals) :
    c.signals.filter (·.id == s.id) = [s] := by
  refine filter_eq_singleton ((List.pairwise_map.mp h.nodup_ids).imp ?_) hs (by simp)
  simp only [beq_iff_eq, not_and]
  intro x y hne hx hy
  exact hne (hx.trans hy.symm)

/-- A signal of an accepted catalog is found by its identifier. -/
theorem get?_of_mem (h : c.Accepted) {s : Signal} (hs : s ∈ c.signals) :
    c.get? s.id = some s := by
  rw [get?, ← List.head?_filter, h.filter_id hs, List.head?_cons]

/-- So is it by its noted place. -/
theorem noted?_eq_get? (h : c.Accepted) (id : String) : c.noted? id = c.get? id :=
  Table.find?_eq_of_places h.nodup_ids

/-- Two signals of an accepted catalog with one identifier are the same. -/
theorem eq_of_id (h : c.Accepted) {s s' : Signal} (hs : s ∈ c.signals) (hs' : s' ∈ c.signals)
    (hid : s.id = s'.id) : s = s' := by
  have hmem : s ∈ c.signals.filter (·.id == s'.id) := by simp [hs, hid]
  rw [h.filter_id hs'] at hmem
  exact List.mem_singleton.mp hmem

/-- The bits that a group of an accepted catalog names are bits of a word. -/
theorem bit_le_maxBit (h : c.Accepted) {group name : String} {g : FlagGroup} {i : Nat}
    (hgroup : c.vocabulary.group? group = some g) (hbit : Table.get? g.bits name = some i) :
    i ≤ maxBit := by
  obtain ⟨⟨key, g'⟩, hmem, rfl⟩ := List.mem_map.mp (Table.mem_values_of_get? hgroup)
  obtain ⟨⟨key', i'⟩, hmem', rfl⟩ := List.mem_map.mp (Table.mem_values_of_get? hbit)
  have hgroups := (Option.or_eq_none_iff.mp (Option.or_eq_none_iff.mp h).1).1
  have hfault : g'.fault? key = none := List.findSome?_eq_none_iff.mp hgroups _ hmem
  unfold FlagGroup.fault? at hfault
  split at hfault
  · cases hfault
  · have hfind := List.find?_eq_none.mp (Option.map_eq_none_iff.mp hfault) _ hmem'
    simpa using hfind

theorem wellFormed (h : c.Accepted) {s : Signal} (hs : s ∈ c.signals) : s.WellFormed :=
  Signal.wellFormed_of_fault? (h.fault?_eq_none hs)

end Accepted

end Catalog

end Telltale
