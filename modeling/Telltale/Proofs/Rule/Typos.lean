import Telltale.Proofs.Rule.WellFormed
import Telltale.Proofs.Snapshot.ClosedWorld
import Telltale.Rule.Judge

/-!
# Literals that an enumerated signal never takes

A leaf that compares an enumerated signal with a value that it does not declare is refused as a
typing error. The check looks at the catalog alone; what it keeps out is a test of the signal's
value on some frame.

* `LeafEntry.compile_of_test` — a leaf of a signal is what its one test is checked for.
* `LeafEntry.literalFault?_of_mem` — the check of the literals, by the values that the signal
  declares.
* `typos_are_refused` — the check refuses what is not declared and nothing else; what it refuses is
  the value of the signal in no snapshot, and what it lets through is a declared value.
-/

namespace Telltale

namespace LeafEntry

/-- The entry that compares a signal with one value. -/
def comparing (id : String) (comparison : Comparison) (v : Json) : LeafEntry :=
  ⟨some id, none, none, [(comparison, v)], none, none, none, none⟩

/-- The entry that looks for a signal among values. -/
def among (id : String) (values : List Json) : LeafEntry :=
  ⟨some id, none, none, [], some values, none, none, none⟩

/-- A leaf of a signal is what its one test is checked for. -/
theorem compile_of_test {c : Catalog} {e : LeafEntry} {id : String} (test : Test)
    (hsignal : e.signal = some id) (hfield : e.field = none) (hflags : e.flags = none)
    (hbits : e.hasBits = false) (htest : e.comparingTests = [test]) (hhas : c.has id = true) :
    e.compile c =
      match (testFault? test).or (literalFault? c (.signal id) test) with
      | some fault => .error fault
      | none => .ok ⟨.signal id, test⟩ := by
  have hoperand : e.operand c = .ok (.signal id) := by
    simp only [operand, hsignal, hfield, hflags, hhas, if_true]
  have hcomparing : e.comparingTest = .ok test := by
    rw [comparingTest, hbits, htest]
    rfl
  unfold compile
  rw [hoperand]
  show (e.comparingTest >>= _) = _
  rw [hcomparing]
  rfl

/-- The literals of an enumerated signal are checked against what it declares. -/
theorem literalFault?_of_mem {c : Catalog} (hc : c.Accepted) {s : Signal} (hs : s ∈ c.signals)
    (ht : s.type = .enum) (test : Test) :
    literalFault? c (.signal s.id) test =
      ((equalityLiterals test).find? fun v => !s.declares v).map (.neverTaken s.id) := by
  have hdeclares (v : Json) : v.memberOf (s.values.map (·.value)) = s.declares v := by
    rw [Json.memberOf, List.any_map]
    rfl
  simp only [literalFault?, hc.get?_of_mem hs, Option.bind_some, if_pos ht, hdeclares]

/-- An equality or its negation is a leaf exactly if its literal is declared. -/
theorem compile_comparing {c : Catalog} (hc : c.Accepted) {s : Signal} (hs : s ∈ c.signals)
    (ht : s.type = .enum) {comparison : Comparison} (h : comparison = .eq ∨ comparison = .ne)
    (v : Json) :
    (comparing s.id comparison v).compile c =
      if s.declares v then .ok ⟨.signal s.id, .compare comparison v⟩
      else .error (.neverTaken s.id v) := by
  have hordering : comparison.isOrdering = false := by
    rcases h with rfl | rfl <;> rfl
  have hhas : c.has s.id = true := Catalog.has_iff_mem_ids.mpr (List.mem_map_of_mem hs)
  rw [compile_of_test (.compare comparison v) rfl rfl rfl rfl rfl hhas,
    literalFault?_of_mem hc hs ht]
  simp only [testFault?, equalityLiterals, hordering]
  cases hdeclares : s.declares v with
  | true => simp [hdeclares]
  | false => simp [hdeclares]

/-- A list of literals is a leaf if all of them are declared; if not, the first other one is at
fault. -/
theorem compile_among {c : Catalog} (hc : c.Accepted) {s : Signal} (hs : s ∈ c.signals)
    (ht : s.type = .enum) {values : List Json} (hne : values ≠ []) :
    (among s.id values).compile c =
      match values.find? fun v => !s.declares v with
      | none => .ok ⟨.signal s.id, .oneOf values⟩
      | some v => .error (.neverTaken s.id v) := by
  have htest : testFault? (.oneOf values) = none := by
    cases values with
    | nil => exact absurd rfl hne
    | cons v rest => rfl
  have hhas : c.has s.id = true := Catalog.has_iff_mem_ids.mpr (List.mem_map_of_mem hs)
  rw [compile_of_test (.oneOf values) rfl rfl rfl rfl rfl hhas,
    literalFault?_of_mem hc hs ht, htest, Option.none_or, equalityLiterals]
  cases values.find? fun v => !s.declares v with
  | none => rfl
  | some v => rfl

end LeafEntry

namespace Signal

/-- A value is declared exactly if it is loosely equal to one that the signal lists. -/
theorem declares_iff {s : Signal} {v : Json} :
    s.declares v = true ↔ ∃ w ∈ s.values, w.value.looseEq v = true :=
  List.any_eq_true

/-- Only declared values are loosely equal to the value of an enumerated signal: the two are loosely
equal to one and the same declared value. -/
theorem declares_of_looseEq_entry {d : Deriver} {scene : Scene} {s : Signal}
    (hs : s.WellFormed) (ht : s.type = .enum) {v : Json}
    (hv : (s.entry (d.read scene s)).value.looseEq v = true) : s.declares v = true := by
  obtain ⟨w, hw⟩ :
      ∃ w, s.values.filter (·.value.looseEq (s.entry (d.read scene s)).value) = [w] := by
    obtain ⟨w, hw, -⟩ := declared_of_entry hs ht
    exact ⟨w, hw⟩
  have hmem : w ∈ s.values.filter (·.value.looseEq (s.entry (d.read scene s)).value) := by
    rw [hw]
    exact List.mem_singleton_self w
  obtain ⟨hdeclared, hloose⟩ := List.mem_filter.mp hmem
  exact declares_iff.mpr ⟨w, hdeclared, Json.looseEq_trans hloose hv⟩

end Signal

/-! ## Tests that are refused -/

section Refused

variable {d : Deriver} {scene : Scene} {s : Signal}

/-- A leaf of a signal is judged on the value of its entry, unless that stands in. -/
theorem Leaf.judge_signal (hc : d.catalog.Accepted) (scene : Scene) (hs : s ∈ d.catalog.signals)
    (test : Test) :
    Leaf.judge ⟨.signal s.id, test⟩
        ⟨scene.frame, scene.externals, (d.derive scene).snapshot⟩ =
      if (s.entry (d.read scene s)).isFallback then .undecided
      else test.judge (s.entry (d.read scene s)).value := by
  have hvalue : (d.derive scene).snapshot.derived? s.id = (d.read scene s).value? :=
    derived?_of_mem hc scene hs
  unfold Leaf.judge Evidence.value?
  dsimp only
  rw [hvalue, Signal.entry]
  cases (d.read scene s).value? with
  | none => rfl
  | some v => rfl

/-- A value that is not declared is not loosely equal to the value of the signal. -/
theorem looseEq_entry_of_not_declares (d : Deriver) (scene : Scene) (hs : s.WellFormed)
    (ht : s.type = .enum) {v : Json} (hv : s.declares v = false) :
    (s.entry (d.read scene s)).value.looseEq v = false := by
  apply Bool.eq_false_iff.mpr
  intro hloose
  rw [Signal.declares_of_looseEq_entry hs ht hloose] at hv
  cases hv

/-- Values of a list that are not declared make no difference to where the value of the signal is a
member. -/
theorem memberOf_filter_declares (hs : s.WellFormed) (ht : s.type = .enum) (values : List Json) :
    (s.entry (d.read scene s)).value.memberOf (values.filter s.declares) =
      (s.entry (d.read scene s)).value.memberOf values := by
  rw [Json.memberOf, Json.memberOf, List.any_filter]
  congr 1
  funext v
  cases hv : s.declares v with
  | true => rw [Bool.true_and]
  | false =>
    rw [Bool.false_and, Json.looseEq_comm, looseEq_entry_of_not_declares d scene hs ht hv]

end Refused

/-! ## The check as a whole -/

/-- How the literals of an enumerated signal are checked, and what that says of its value. -/
structure TyposAreRefused (d : Deriver) (s : Signal) : Prop where
  /-- An equality or its negation is a leaf exactly if its literal is declared. -/
  equality : ∀ comparison, comparison = .eq ∨ comparison = .ne → ∀ v,
    (LeafEntry.comparing s.id comparison v).compile d.catalog =
      if s.declares v then .ok ⟨.signal s.id, .compare comparison v⟩
      else .error (.neverTaken s.id v)
  equality_iff : ∀ comparison, comparison = .eq ∨ comparison = .ne → ∀ v,
    (∃ l, (LeafEntry.comparing s.id comparison v).compile d.catalog = .ok l) ↔
      ∃ w ∈ s.values, w.value.looseEq v = true
  /-- A list of literals is a leaf exactly if all are declared. -/
  list : ∀ values ≠ [], (LeafEntry.among s.id values).compile d.catalog =
    match values.find? fun v => !s.declares v with
    | none => .ok ⟨.signal s.id, .oneOf values⟩
    | some v => .error (.neverTaken s.id v)
  list_iff : ∀ values ≠ [],
    (∃ l, (LeafEntry.among s.id values).compile d.catalog = .ok l) ↔
      ∀ v ∈ values, ∃ w ∈ s.values, w.value.looseEq v = true
  /-- A value that is not declared is the value of the signal in no snapshot, and no test for it
  holds. -/
  sound : ∀ v, s.declares v = false → ∀ scene : Scene,
    let snapshot := (d.derive scene).snapshot
    let evidence : Evidence := ⟨scene.frame, scene.externals, snapshot⟩
    (∃ e, snapshot.filter (·.id == s.id) = [e] ∧ e.value.looseEq v = false) ∧
      Leaf.judge ⟨.signal s.id, .compare .eq v⟩ evidence ≠ .holds ∧
      Leaf.judge ⟨.signal s.id, .compare .ne v⟩ evidence ≠ .fails
  /-- Values that are not declared make no difference to a list. -/
  list_sound : ∀ values (scene : Scene),
    let evidence : Evidence := ⟨scene.frame, scene.externals, (d.derive scene).snapshot⟩
    Leaf.judge ⟨.signal s.id, .oneOf (values.filter s.declares)⟩ evidence =
      Leaf.judge ⟨.signal s.id, .oneOf values⟩ evidence
  /-- A test for a declared value holds of a value that the signal lists. -/
  complete : ∀ v, s.declares v = true →
    ∃ w ∈ s.values, Test.judge (.compare .eq v) w.value = .holds

/-- **The check of the literals of an enumerated signal refuses what the signal never takes and
nothing that it lists**, for every accepted catalog, whatever combiners and documents there are. -/
theorem typos_are_refused {c : Catalog} {cs : Combiners} {d : Deriver} (hc : c.Accepted)
    (hd : Deriver.build c cs = .ok d) {s : Signal} (hs : s ∈ c.signals) (ht : s.type = .enum) :
    d.catalog = c ∧ d.combiners = cs ∧ TyposAreRefused d s := by
  have hcatalog : d.catalog = c := by rw [eq_of_build hd]
  have hcombiners : d.combiners = cs := by rw [eq_of_build hd]
  subst hcatalog
  refine ⟨rfl, hcombiners, ?_⟩
  have hwell := hc.wellFormed hs
  constructor
  case equality =>
    intro comparison hcomparison v
    exact LeafEntry.compile_comparing hc hs ht hcomparison v
  case equality_iff =>
    intro comparison hcomparison v
    rw [LeafEntry.compile_comparing hc hs ht hcomparison v, ← Signal.declares_iff]
    cases s.declares v with
    | true => simp
    | false => simp
  case list =>
    intro values hne
    exact LeafEntry.compile_among hc hs ht hne
  case list_iff =>
    intro values hne
    rw [LeafEntry.compile_among hc hs ht hne]
    simp only [← Signal.declares_iff]
    cases hfind : values.find? fun v => !s.declares v with
    | none => simpa using hfind
    | some bad =>
      have hbad : s.declares bad = false := by simpa using List.find?_some hfind
      have hmem : bad ∈ values := List.mem_of_find?_eq_some hfind
      constructor
      · rintro ⟨l, hl⟩
        cases hl
      · intro hall
        rw [hall bad hmem] at hbad
        cases hbad
  case sound =>
    intro v hv scene snapshot evidence
    have hne := looseEq_entry_of_not_declares d scene hwell ht hv
    refine ⟨⟨_, filter_snapshot hc scene hs, hne⟩, ?_, ?_⟩
    · rw [Leaf.judge_signal hc scene hs]
      simp only [Test.judge, Comparison.apply, hne]
      split <;> decide
    · rw [Leaf.judge_signal hc scene hs]
      simp only [Test.judge, Comparison.apply, hne]
      split <;> decide
  case list_sound =>
    intro values scene evidence
    rw [Leaf.judge_signal hc scene hs, Leaf.judge_signal hc scene hs]
    simp only [Test.judge, memberOf_filter_declares hwell ht]
  case complete =>
    intro v hv
    obtain ⟨w, hw, hloose⟩ := Signal.declares_iff.mp hv
    refine ⟨w, hw, ?_⟩
    show Verdict.ofBool? (some (w.value.looseEq v)) = .holds
    rw [hloose]
    rfl

theorem typos_are_refused_tower :
    let d : Deriver := ⟨tower, .absent⟩
    tower.Accepted ∧ Deriver.build tower .absent = .ok d ∧
    ∃ s ∈ tower.signals, s.type = .enum ∧ TyposAreRefused d s ∧
      s.declares (.string "up") = true ∧ s.declares (.string "upp") = false := by
  intro d
  have hfault : tower.fault?.isNone = true := by decide +kernel
  have haccepted : tower.Accepted := Option.isNone_iff_eq_none.mp hfault
  have hbuild : Deriver.build tower .absent = .ok d := rfl
  have hmem : tower.signals[0] ∈ tower.signals := List.getElem_mem (by decide)
  refine ⟨haccepted, hbuild, tower.signals[0], hmem, rfl, ?_, by decide +kernel, by decide +kernel⟩
  exact (typos_are_refused haccepted hbuild hmem rfl).2.2

end Telltale
