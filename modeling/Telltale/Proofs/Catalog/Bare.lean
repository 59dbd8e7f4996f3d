import Mathlib.Data.List.Forall2
import Telltale.Rule.Document
import Telltale.Snapshot

/-!
# Catalogs without what is for people

Labels and descriptions are for people, and defaults for whoever reads a snapshot. Without all of
them a catalog is bare, and it stays the same catalog to rules documents and expressions.

* `Catalog.bare` — the catalog without defaults, descriptions and labels.
* `Rule.listOfText_bare` — every rules document brings the same rules or the same fault.
* `Signal.read_bare` — the same comes of every signal on every scene.
* `Deriver.build_congr` — the same combiners are missing.
* `Snapshot.SameButDefaults` — two snapshots tell the same, apart from what stands in for signals
  that have no value; `derive_congr` has it of two catalogs that are the same when bare.
-/

namespace Telltale

/-! ## Bare catalogs -/

/-- A declared value without its label. -/
def EnumValue.bare (v : EnumValue) : EnumValue := { v with label := none }

/-- A signal without labels, default and description. -/
def Signal.bare (s : Signal) : Signal :=
  { s with values := s.values.map EnumValue.bare, default := none, description := none }

/-- A catalog without labels, defaults and descriptions. -/
def Catalog.bare (c : Catalog) : Catalog := { c with signals := c.signals.map Signal.bare }

/-! ## Rules documents -/

namespace Catalog

theorem has_bare (c : Catalog) (id : String) : c.bare.has id = c.has id :=
  List.any_map

theorem get?_bare (c : Catalog) (id : String) : c.bare.get? id = (c.get? id).map Signal.bare :=
  List.find?_map

end Catalog

namespace LeafEntry

theorem operand_bare (c : Catalog) (e : LeafEntry) : e.operand c.bare = e.operand c := by
  unfold operand
  simp only [Catalog.has_bare]
  rfl

/-- Checking literals against declared values does not look at labels. -/
theorem literalFault?_bare (c : Catalog) (operand : Operand) (test : Test) :
    literalFault? c.bare operand test = literalFault? c operand test := by
  cases operand with
  | signal id =>
    simp only [literalFault?, Catalog.get?_bare]
    cases c.get? id with
    | none => rfl
    | some s =>
      have hvalues : s.bare.values.map (·.value) = s.values.map (·.value) := by
        simp [Signal.bare, EnumValue.bare]
      simp only [Option.map_some, Option.bind_some, hvalues]
      rfl
  | field path => rfl
  | flags group path => rfl

theorem compile_bare (c : Catalog) (e : LeafEntry) : e.compile c.bare = e.compile c := by
  unfold compile
  simp only [operand_bare, literalFault?_bare]
  rfl

end LeafEntry

namespace ConditionEntry

mutual

theorem compile_bare (c : Catalog) : ∀ e : ConditionEntry, compile c.bare e = compile c e
  | .mk _ (some _) (some _) => by simp only [compile]
  | .mk _ (some members) none => by simp only [compile, compileEach_bare c members]
  | .mk _ none (some members) => by simp only [compile, compileEach_bare c members]
  | .mk leaf none none => by simp only [compile, leaf.compile_bare c]

theorem compileEach_bare (c : Catalog) :
    ∀ entries : List ConditionEntry, compileEach c.bare entries = compileEach c entries
  | [] => by simp only [compileEach]
  | e :: rest => by simp only [compileEach, compile_bare c e, compileEach_bare c rest]

end

theorem compileGroup_bare (c : Catalog) (name : String) (entries : Option (List ConditionEntry)) :
    compileGroup c.bare name entries = compileGroup c name entries := by
  unfold compileGroup
  simp only [compileEach_bare]

end ConditionEntry

namespace RuleEntry

theorem compileBody_bare (c : Catalog) (e : RuleEntry) : e.compileBody c.bare = e.compileBody c := by
  unfold compileBody
  rw [ConditionEntry.compileGroup_bare, ConditionEntry.compileGroup_bare]

theorem compile_bare (c : Catalog) (e : RuleEntry) : e.compile c.bare = e.compile c := by
  unfold compile
  rw [compileBody_bare]

theorem compileFrom_bare (c : Catalog) (number : Nat) (earlier : List String)
    (entries : List RuleEntry) :
    compileFrom c.bare number earlier entries = compileFrom c number earlier entries := by
  induction entries generalizing number earlier with
  | nil => rfl
  | cons e rest ih => simp only [compileFrom, compile_bare, ih]

end RuleEntry

/-- A rules document brings the same rules, or the same fault. -/
theorem Rule.listOfText_bare (c : Catalog) (text : String) :
    Rule.listOfText c.bare text = Rule.listOfText c text := by
  simp only [Rule.listOfText, RuleEntry.compileEach, RuleEntry.compileFrom_bare]

/-! ## Signals -/

namespace Signal

theorem declared?_bare (s : Signal) (v : Json) :
    s.bare.declared? v = (s.declared? v).map EnumValue.bare :=
  List.find?_map

/-- Holding a value against a declaration does not look at labels, nor at the default. -/
theorem conform_bare (s : Signal) (v : Json) : s.bare.conform v = s.conform v := by
  have htype : s.bare.type = s.type := rfl
  unfold conform
  rw [htype, declared?_bare]
  cases s.type with
  -- what is handed back is the declared value, not the entry with its label
  | enum => cases s.declared? v <;> rfl
  | bool => rfl
  | number => rfl
  | string => rfl
  | array => rfl

theorem read_bare (s : Signal) (v : Vocabulary) (cs : Combiners) (scene : Scene) :
    s.bare.read v cs scene = s.read v cs scene := by
  have haccept (raw : Json) : s.bare.accept raw = s.accept raw := by
    unfold accept
    rw [conform_bare]
    rfl
  have hexpr : s.bare.expr = s.expr := rfl
  simp only [read, hexpr, haccept]

end Signal

/-! ## Combiners -/

theorem Catalog.subterms_bare (c : Catalog) : c.bare.subterms = c.subterms :=
  List.flatMap_map Signal.bare _ c.signals

theorem Catalog.missingCombiner?_bare (c : Catalog) (cs : Combiners) :
    c.bare.missingCombiner? cs = c.missingCombiner? cs := by
  unfold missingCombiner?
  rw [subterms_bare]

/-- Two catalogs that are the same when bare lack the same combiners. -/
theorem Deriver.build_congr {c c' : Catalog} (h : c.bare = c'.bare) (cs : Combiners) :
    (∃ m, build c cs = .error m ∧ build c' cs = .error m) ∨
    (build c cs = .ok ⟨c, cs⟩ ∧ build c' cs = .ok ⟨c', cs⟩) := by
  have hmissing : c'.missingCombiner? cs = c.missingCombiner? cs := by
    rw [← c.missingCombiner?_bare, h, c'.missingCombiner?_bare]
  unfold build
  rw [hmissing]
  cases c.missingCombiner? cs with
  | some m => exact .inl ⟨m, rfl, rfl⟩
  | none => exact .inr ⟨rfl, rfl⟩

/-! ## Snapshots -/

/-- Two entries are of one signal and have one value, unless they stand in for one. -/
structure Entry.SameButDefault (e e' : Entry) : Prop where
  id : e.id = e'.id
  isFallback : e.isFallback = e'.isFallback
  value : e.isFallback = false → e.value = e'.value

/-- Two snapshots tell the same of every signal that has a value, and stand in for the same ones. -/
def Snapshot.SameButDefaults : Snapshot → Snapshot → Prop := List.Forall₂ Entry.SameButDefault

theorem Entry.map_value_filter (e : Entry) :
    ((some e).filter (!·.isFallback)).map (·.value) =
      if e.isFallback then none else some e.value := by
  cases h : e.isFallback with
  | true => simp [Option.filter, h]
  | false => simp [Option.filter, h]

/-- What rules see of two such snapshots is the same. -/
theorem Snapshot.SameButDefaults.derived?_eq {s s' : Snapshot} (h : s.SameButDefaults s')
    (id : String) : s.derived? id = s'.derived? id := by
  unfold Snapshot.derived? Snapshot.entry?
  induction h with
  | nil => rfl
  | @cons e e' _ _ he _ ih =>
    rw [List.find?_cons, List.find?_cons, he.id]
    cases e'.id == id with
    | false => exact ih
    | true =>
      show ((some e).filter _).map _ = ((some e').filter _).map _
      -- the values may differ where both stand in, and there neither is seen
      rw [Entry.map_value_filter, Entry.map_value_filter, ← he.isFallback]
      cases hfallback : e.isFallback with
      | true => rfl
      | false => rw [he.value hfallback]

theorem Signal.entry_congr {s s' : Signal} (h : s.bare = s'.bare) (r : Reading) :
    (s.entry r).SameButDefault (s'.entry r) := by
  have hid : s.id = s'.id := by
    show s.bare.id = s'.bare.id
    rw [h]
  unfold Signal.entry
  cases r.value? with
  | some value => exact ⟨hid, rfl, fun _ => rfl⟩
  | none => exact ⟨hid, rfl, fun hderived => absurd hderived Bool.false_ne_true.symm⟩

theorem Catalog.forall₂_bare {c c' : Catalog} (h : c.bare = c'.bare) :
    List.Forall₂ (fun s s' : Signal => s.bare = s'.bare) c.signals c'.signals := by
  have hmap : c.signals.map Signal.bare = c'.signals.map Signal.bare := congrArg Catalog.signals h
  rw [← List.forall₂_eq_eq_eq, List.forall₂_map_left_iff, List.forall₂_map_right_iff] at hmap
  exact hmap

/-- Two catalogs that are the same when bare derive the same on every scene, apart from what stands
in, and report the same. -/
theorem derive_congr {d d' : Deriver} (h : d.catalog.bare = d'.catalog.bare)
    (hcombiners : d.combiners = d'.combiners) (scene : Scene) :
    (d.derive scene).snapshot.SameButDefaults (d'.derive scene).snapshot ∧
    (d.derive scene).diagnostics = (d'.derive scene).diagnostics := by
  have hvocabulary : d'.catalog.vocabulary = d.catalog.vocabulary :=
    (congrArg Catalog.vocabulary h).symm
  have hread {s s' : Signal} (hs : s.bare = s'.bare) :
      s'.read d.catalog.vocabulary d.combiners scene =
        s.read d.catalog.vocabulary d.combiners scene := by
    rw [← s.read_bare, hs, s'.read_bare]
  have hsignals := Catalog.forall₂_bare h
  simp only [Deriver.derive, Deriver.read, hvocabulary, ← hcombiners]
  generalize d.catalog.signals = signals at hsignals ⊢
  generalize d'.catalog.signals = signals' at hsignals ⊢
  induction hsignals with
  | nil => exact ⟨.nil, rfl⟩
  | @cons s s' _ _ hs _ ih =>
    simp only [List.map_cons, List.filterMap_cons, hread hs]
    refine ⟨.cons (Signal.entry_congr hs _) ih.1, ?_⟩
    rw [ih.2]

end Telltale
