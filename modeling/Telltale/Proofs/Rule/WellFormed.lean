import Mathlib.Data.List.DropRight
import Telltale.Proofs.Rule.Loaded

/-!
# Rules are well-formed

What every rule that a document brings can be relied on for, in words of its own and not in those of
the checks.

* `Leaf.WellFormed` — the operand of a leaf is there, and its test is one for such an operand.
* `Condition.WellFormed` — a group is not empty, and a leaf is well-formed.
* `Rule.WellFormed` — a rule has a proper identifier and title, conditions and actions, nothing in it
  is blank, and all its conditions are well-formed, at every depth.
* `Rule.wellFormed_of_listOfText` — the rules of a text are well-formed, and have different
  identifiers.
-/

namespace Telltale

/-! ## Trimmed texts -/

/-- Trimming takes blanks off at both ends. -/
theorem Text.trim_eq (s : String) :
    trim s = String.ofList ((s.toList.dropWhile isBlank).rdropWhile isBlank) := rfl

theorem dropWhile_rdropWhile {p : α → Bool} {l : List α} (h : l.dropWhile p = l) :
    (l.rdropWhile p).dropWhile p = l.rdropWhile p := by
  rw [List.dropWhile_eq_self_iff] at h ⊢
  intro hlength
  have hprefix : l.rdropWhile p <+: l := List.rdropWhile_prefix p l
  have hlt : 0 < l.length := hlength.trans_le hprefix.length_le
  have hhead := h hlt
  rwa [← hprefix.getElem hlength] at hhead

@[simp] theorem Text.trim_trim (s : String) : trim (trim s) = trim s := by
  have hfront := dropWhile_rdropWhile (List.dropWhile_idempotent isBlank s.toList)
  rw [trim_eq (trim s), trim_eq s, String.toList_ofList, hfront, List.rdropWhile_idempotent]

/-! ## Leaves -/

/-- A test compares its operand with a value for equality. -/
inductive Test.Mentions (v : Json) : Test → Prop where
  | eq : Mentions v (.compare .eq v)
  | ne : Mentions v (.compare .ne v)
  | oneOf {values : List Json} (hv : v ∈ values) : Mentions v (.oneOf values)

/-- The operand of a leaf is there, and its test is one for such an operand. -/
structure Leaf.WellFormed (c : Catalog) (l : Leaf) : Prop where
  signal : ∀ id, l.operand = .signal id → ∃ s, c.get? id = some s
  field : ∀ path, l.operand = .field path → Text.isBlankText path = false
  flags : ∀ group path, l.operand = .flags group path →
    ∃ g allOf anyOf noneOf, c.vocabulary.group? group = some g ∧ path = g.path ∧
      l.test = .bits allOf anyOf noneOf ∧
      (∀ i ∈ allOf ++ anyOf ++ noneOf, ∃ name, Table.get? g.bits name = some i) ∧
      allOf ++ anyOf ++ noneOf ≠ []
  bits : ∀ allOf anyOf noneOf, l.test = .bits allOf anyOf noneOf →
    ∃ group path, l.operand = .flags group path
  ordering : ∀ comparison value, l.test = .compare comparison value → comparison ≠ .eq →
    comparison ≠ .ne → value.isNumber = true
  oneOf : ∀ values, l.test = .oneOf values → values ≠ []
  literals : ∀ id s, l.operand = .signal id → c.get? id = some s → s.type = .enum →
    ∀ v, l.test.Mentions v → ∃ w ∈ s.values, w.value.looseEq v = true

namespace LeafEntry

variable {c : Catalog} {test : Test}

theorem isNumber_of_testFault? {comparison : Comparison} {value : Json}
    (h : testFault? (.compare comparison value) = none) (heq : comparison ≠ .eq)
    (hne : comparison ≠ .ne) : value.isNumber = true := by
  have hordering : comparison.isOrdering = true := by
    cases comparison with
    | eq => exact absurd rfl heq
    | ne => exact absurd rfl hne
    | gt | gte | lt | lte => rfl
  simpa [testFault?, hordering] using h

theorem ne_nil_of_testFault? {values : List Json} (h : testFault? (.oneOf values) = none) :
    values ≠ [] := by
  rintro rfl
  cases h

theorem mem_equalityLiterals {v : Json} (h : test.Mentions v) : v ∈ equalityLiterals test := by
  cases h with
  | eq => exact List.mem_singleton_self v
  | ne => exact List.mem_singleton_self v
  | oneOf hv => exact hv

theorem declared_of_literalFault? {id : String} {s : Signal}
    (h : literalFault? c (.signal id) test = none) (hs : c.get? id = some s)
    (htype : s.type = .enum) {v : Json} (hv : test.Mentions v) :
    ∃ w ∈ s.values, w.value.looseEq v = true := by
  unfold literalFault? at h
  dsimp only at h
  rw [hs, Option.bind_some, if_pos htype, Option.map_eq_none_iff, List.find?_eq_none] at h
  have hmember : v.memberOf (s.values.map (·.value)) = true := by
    simpa using h v (mem_equalityLiterals hv)
  obtain ⟨value, hvalue, heq⟩ := List.any_eq_true.mp hmember
  obtain ⟨w, hw, rfl⟩ := List.mem_map.mp hvalue
  exact ⟨w, hw, heq⟩

end LeafEntry

theorem Catalog.exists_of_has {c : Catalog} {id : String} (h : c.has id = true) :
    ∃ s, c.get? id = some s := by
  apply Option.isSome_iff_exists.mp
  rw [get?, List.find?_isSome]
  exact List.any_eq_true.mp h

theorem Leaf.Loaded.wellFormed {c : Catalog} {l : Leaf} (h : l.Loaded c) : l.WellFormed c := by
  cases h with
  | @signal id test hhas hcomparing htest hliterals =>
    exact {
      signal := by
        rintro _ ⟨⟩
        exact Catalog.exists_of_has hhas
      field := nofun
      flags := nofun
      bits := fun allOf anyOf noneOf hbits => absurd hbits (hcomparing allOf anyOf noneOf)
      ordering := fun _ _ hcompare => LeafEntry.isNumber_of_testFault? (hcompare ▸ htest)
      oneOf := fun _ hone => LeafEntry.ne_nil_of_testFault? (hone ▸ htest)
      literals := by
        rintro _ s ⟨⟩ hs htype v hv
        exact LeafEntry.declared_of_literalFault? hliterals hs htype hv }
  | @field path test hpath hcomparing htest =>
    exact {
      signal := nofun
      field := by
        rintro _ ⟨⟩
        exact hpath
      flags := nofun
      bits := fun allOf anyOf noneOf hbits => absurd hbits (hcomparing allOf anyOf noneOf)
      ordering := fun _ _ hcompare => LeafEntry.isNumber_of_testFault? (hcompare ▸ htest)
      oneOf := fun _ hone => LeafEntry.ne_nil_of_testFault? (hone ▸ htest)
      literals := nofun }
  | @flags group g allOf anyOf noneOf hgroup hbits hne =>
    exact {
      signal := nofun
      field := nofun
      flags := by
        rintro _ _ ⟨⟩
        exact ⟨g, allOf, anyOf, noneOf, hgroup, rfl, rfl, hbits, hne⟩
      bits := fun _ _ _ _ => ⟨group, g.path, rfl⟩
      ordering := nofun
      oneOf := nofun
      literals := nofun }

/-! ## Conditions and actions -/

/-- A group is not empty, and a leaf is well-formed. -/
def Condition.WellFormed (c : Catalog) : Condition → Prop
  | .all members | .any members => members ≠ []
  | .leaf l => l.WellFormed c

theorem Condition.Loaded.wellFormed {c : Catalog} {cond : Condition} (h : cond.Loaded c) :
    cond.WellFormed c := by
  cases h with
  | all hne _ => exact hne
  | any hne _ => exact hne
  | leaf h => exact h.wellFormed

/-- The flag or the name that an action has is not blank. -/
def Action.IsNamed : Action → Prop
  | .setFlag name | .clearFlag name | .emit name _ => Text.isBlankText name = false
  | .log _ => True

theorem Action.isNamed_of_fault? {a : Action} (h : a.fault? = none) : a.IsNamed := by
  cases a with
  | setFlag name | clearFlag name | emit name payload => simpa [fault?, IsNamed] using h
  | log message => trivial

/-! ## Rules -/

theorem ConditionEntry.isSome_of_compileGroup {c : Catalog} {name : String}
    {entries : Option (List ConditionEntry)} {group : Option (List Condition)}
    (h : compileGroup c name entries = .ok group) (hentries : entries.isSome = true) :
    group.isSome = true := by
  unfold compileGroup at h
  split at h
  · cases hentries
  · cases h
  · obtain ⟨members, -, rfl⟩ := exists_of_map_eq_ok h
    rfl

/-- What can be relied on of a rule. -/
structure Rule.WellFormed (c : Catalog) (r : Rule) : Prop where
  id : Identifier.isValid r.id = true
  trimmed : Text.trim r.title = r.title
  titled : r.title ≠ ""
  grouped : r.all.isSome = true ∨ r.any.isSome = true
  onRise : r.onRise ≠ []
  actions : ∀ a ∈ r.onRise ++ r.onFall, a.IsNamed
  events : ∀ event ∈ r.filter.events, Text.isBlankText event = false
  conditions : ∀ cond, r.Has cond → cond.WellFormed c

theorem RuleEntry.Passed.wellFormed {c : Catalog} {e : RuleEntry} {r : Rule} (h : e.Passed c r)
    (hconditions : ∀ cond, r.Has cond → cond.Loaded c) : r.WellFormed c := by
  have hgrouped : r.all.isSome = true ∨ r.any.isSome = true :=
    h.grouped.imp (ConditionEntry.isSome_of_compileGroup h.all)
      (ConditionEntry.isSome_of_compileGroup h.any)
  have hwellFormed : ∀ cond, r.Has cond → cond.WellFormed c :=
    fun cond hcond => (hconditions cond hcond).wellFormed
  have hactions : ∀ a ∈ e.onRise ++ e.onFall, a.IsNamed :=
    fun a ha => Action.isNamed_of_fault? (h.actions a ha)
  rw [h.parts] at hgrouped hwellFormed ⊢
  exact ⟨h.id, Text.trim_trim e.title, h.title, hgrouped, h.onRise, hactions, h.events, hwellFormed⟩

/-- **The rules of a text are well-formed**, whatever catalog they are for, and no two of them have
one identifier. -/
theorem Rule.wellFormed_of_listOfText {c : Catalog} {text : String} {rules : List Rule}
    (h : Rule.listOfText c text = .ok rules) :
    (rules.map (·.id)).Nodup ∧ ∀ r ∈ rules, r.WellFormed c := by
  refine ⟨Rule.nodup_ids_of_listOfText h, fun r hr => ?_⟩
  obtain ⟨e, he⟩ := Rule.exists_of_mem_listOfText h hr
  have hpassed : e.Passed c r := RuleEntry.passed_of_compile he
  exact hpassed.wellFormed fun cond hcond => hcond.loaded h hr

/-- A catalog of one enumerated signal and one group of flags. -/
def tower : Catalog where
  version := 1
  vocabulary := ⟨[("ship", ⟨"dashboard.Flags", [("docked", 0)]⟩)], []⟩
  signals := [{
    id := "gear"
    type := .enum
    values := [⟨.string "up", none⟩, ⟨.string "down", none⟩]
    default := none
    description := none
    expr := .path "dashboard.Gear" none }]

/-- One rule whose group has a group inside. -/
def towerRules : String :=
  "rules:\n- title: ' Gear'\n  when:\n    all:\n    - any:\n      - flags: ship\n" ++
    "        any_of: [docked]\n      - signal: gear\n        eq: up\n  then:\n  - type: log\n" ++
    "    message: m\n"

theorem Rule.wellFormed_of_listOfText_tower :
    ∃ rules, Rule.listOfText tower towerRules = .ok rules ∧
      rules.map (fun r => (r.title, r.leaves.length)) = [("Gear", 2)] ∧
      (rules.map (·.id)).Nodup ∧ ∀ r ∈ rules, r.WellFormed tower := by
  have hload : (Rule.listOfText tower towerRules).toOption.any (fun rules =>
      decide (rules.map (fun r => (r.title, r.leaves.length)) = [("Gear", 2)])) = true := by
    decide +kernel
  obtain ⟨rules, hrules, htitles⟩ := exists_of_any_toOption hload
  exact ⟨rules, hrules, of_decide_eq_true htitles, wellFormed_of_listOfText hrules⟩

end Telltale
