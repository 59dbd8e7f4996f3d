import Telltale.Proofs.Rule.WellFormed

/-!
# What entries of conditions say

An entry of a condition is meant to be a group or a leaf, whole, so that each of its keys becomes a
part of the condition. The checks see to that, save that they do not look for tests beside a group,
which are passed over.

* `LeafEntry.Says`, `ConditionEntry.Says` — a condition is what an entry says, key by key, and the
  entry says nothing else.
* `ConditionEntry.IsGroup`, `ConditionEntry.IsLeaf` — an entry is a group, or a leaf, and nothing
  else.
* `ConditionEntry.TestsInLeaves` — no entry has a test beside a group, at any depth.
* `LeafEntry.says_of_compile` — the leaf that an entry is compiled to is what it says.
* `ConditionEntry.says_iff_testsInLeaves` — a condition is what its entry says exactly if the entry
  and all entries inside it are whole, and that is if their tests are in leaves.
-/

namespace Telltale

/-! ## Leaves -/

/-- A test is what the keys of comparisons say: there is one of them. -/
inductive Test.IsOf : List (Comparison × Json) → Option (List Json) → Test → Prop where
  | compare (comparison : Comparison) (value : Json) :
    IsOf [(comparison, value)] none (.compare comparison value)
  | oneOf (values : List Json) : IsOf [] (some values) (.oneOf values)

/-- Bits are those that a key names, one by one. -/
def FlagGroup.Names (g : FlagGroup) (names : Option (List String)) (bits : List Nat) : Prop :=
  List.Forall₂ (fun name i => Table.get? g.bits name = some i) (names.getD []) bits

namespace LeafEntry

/-- The bits that the entry names. -/
def bitNames (e : LeafEntry) : List String :=
  e.allOf.getD [] ++ e.anyOf.getD [] ++ e.noneOf.getD []

/-- Whether the entry has a test of any kind. -/
def hasTest (e : LeafEntry) : Bool := !e.comparingTests.isEmpty || e.hasBits

/-- The operands of the entry alone. -/
def withoutTests (e : LeafEntry) : LeafEntry :=
  ⟨e.signal, e.field, e.flags, [], none, none, none, none⟩

/-- The entry has neither an operand nor a test. -/
def IsEmpty (e : LeafEntry) : Prop := e.hasOperand = false ∧ e.hasTest = false

/-- The entry has one operand, with one comparison and no bits, or else, if it is a word of flags,
with bits and no comparison. -/
structure IsWhole (e : LeafEntry) : Prop where
  operand : (e.signal.toList ++ e.field.toList ++ e.flags.toList).length = 1
  comparison : e.flags = none → e.comparisons.length + e.oneOf.toList.length = 1 ∧ e.hasBits = false
  bits : ∀ group, e.flags = some group → e.comparisons = [] ∧ e.oneOf = none ∧ e.bitNames ≠ []

/-- A leaf is what an entry says, and the entry says nothing else. -/
inductive Says (c : Catalog) : LeafEntry → Leaf → Prop where
  | signal {id : String} {comparisons : List (Comparison × Json)} {oneOf : Option (List Json)}
    {test : Test} (htest : test.IsOf comparisons oneOf) :
    Says c ⟨some id, none, none, comparisons, oneOf, none, none, none⟩ ⟨.signal id, test⟩
  | field {path : String} {comparisons : List (Comparison × Json)} {oneOf : Option (List Json)}
    {test : Test} (htest : test.IsOf comparisons oneOf) :
    Says c ⟨none, some path, none, comparisons, oneOf, none, none, none⟩ ⟨.field path, test⟩
  | flags {group : String} {g : FlagGroup} {allOf anyOf noneOf : Option (List String)}
    {all any none' : List Nat} (hgroup : c.vocabulary.group? group = some g)
    (hall : g.Names allOf all) (hany : g.Names anyOf any) (hnone : g.Names noneOf none')
    (hne : all ++ any ++ none' ≠ []) :
    Says c ⟨none, none, some group, [], none, allOf, anyOf, noneOf⟩
      ⟨.flags group g.path, .bits all any none'⟩

variable {c : Catalog} {e : LeafEntry}

theorem hasBits_eq_false_iff :
    e.hasBits = false ↔ e.allOf = none ∧ e.anyOf = none ∧ e.noneOf = none := by
  simp [hasBits, and_assoc]

theorem comparingTests_eq_nil_iff :
    e.comparingTests = [] ↔ e.comparisons = [] ∧ e.oneOf = none := by
  cases hone : e.oneOf <;> simp [comparingTests, hone]

/-- A single test is a comparison or a set. -/
theorem isOf_of_comparingTests {test : Test} (h : e.comparingTests = [test]) :
    test.IsOf e.comparisons e.oneOf := by
  unfold comparingTests at h
  cases hcomparisons : e.comparisons with
  | nil =>
    cases hone : e.oneOf with
    | none => rw [hcomparisons, hone] at h; cases h
    | some values => rw [hcomparisons, hone] at h; cases h; exact .oneOf values
  | cons p rest =>
    rw [hcomparisons, List.map_cons, List.cons_append, List.cons.injEq, List.append_eq_nil_iff,
      List.map_eq_nil_iff, Option.toList_eq_nil_iff, Option.map_eq_none_iff] at h
    obtain ⟨rfl, rfl, hone⟩ := h
    rw [hone]
    exact .compare p.1 p.2

/-- The leaf that an entry is compiled to is what it says. -/
theorem says_of_compile {leaf : Leaf} (h : e.compile c = .ok leaf) : e.Says c leaf := by
  obtain ⟨hoperand, hbitTest, hcomparing, -, -⟩ := parts_of_compile h
  obtain ⟨signal, field, flags, comparisons, oneOf, allOf, anyOf, noneOf⟩ := e
  obtain ⟨operand, test⟩ := leaf
  dsimp only at hoperand hbitTest hcomparing
  rcases operand_cases hoperand with
    ⟨id, rfl, -, rfl, rfl, rfl⟩ | ⟨path, rfl, -, rfl, rfl, rfl⟩ |
    ⟨group, g, rfl, hgroup, rfl, rfl, rfl⟩
  · obtain ⟨htests, hbits⟩ := tests_of_comparingTest (hcomparing fun _ _ => Operand.noConfusion)
    obtain ⟨rfl, rfl, rfl⟩ := hasBits_eq_false_iff.mp hbits
    exact .signal (isOf_of_comparingTests htests)
  · obtain ⟨htests, hbits⟩ := tests_of_comparingTest (hcomparing fun _ _ => Operand.noConfusion)
    obtain ⟨rfl, rfl, rfl⟩ := hasBits_eq_false_iff.mp hbits
    exact .field (isOf_of_comparingTests htests)
  · obtain ⟨all, any, none', rfl, htests, hall, hany, hnone, hne⟩ :=
      parts_of_bitTest (hbitTest group g.path rfl)
    obtain ⟨rfl, rfl⟩ := comparingTests_eq_nil_iff.mp htests
    exact .flags hgroup (forall₂_of_bitsOf hgroup hall) (forall₂_of_bitsOf hgroup hany)
      (forall₂_of_bitsOf hgroup hnone) hne

theorem length_of_isOf {comparisons : List (Comparison × Json)} {oneOf : Option (List Json)}
    {test : Test} (h : test.IsOf comparisons oneOf) :
    comparisons.length + oneOf.toList.length = 1 := by
  cases h <;> rfl

/-- An entry that says a leaf and nothing else is whole. -/
theorem Says.isWhole {leaf : Leaf} (h : e.Says c leaf) : e.IsWhole := by
  cases h with
  | signal htest | field htest =>
    exact ⟨rfl, fun _ => ⟨length_of_isOf htest, rfl⟩, nofun⟩
  | @flags group g allOf anyOf noneOf all any none' hgroup hall hany hnone hne =>
    refine ⟨rfl, nofun, fun _ _ => ⟨rfl, rfl, fun hnames => hne ?_⟩⟩
    -- as many bits as names
    have hlength : (all ++ any ++ none').length = 0 := by
      have hnil := congrArg List.length hnames
      simp only [bitNames, List.length_append, List.length_nil] at hnil
      simp only [List.length_append]
      rw [← hall.length_eq, ← hany.length_eq, ← hnone.length_eq, hnil]
    exact List.eq_nil_of_length_eq_zero hlength

end LeafEntry

/-! ## Entries of conditions -/

namespace ConditionEntry

/-- The part of an entry that describes a leaf. -/
def leafEntry : ConditionEntry → LeafEntry
  | .mk leaf _ _ => leaf

/-- Whether an entry has a group. -/
def hasGroup : ConditionEntry → Bool
  | .mk _ all any => all.isSome || any.isSome

/-- An entry is one group and nothing else. -/
def IsGroup : ConditionEntry → Prop
  | .mk leaf all any => all.isSome ≠ any.isSome ∧ leaf.IsEmpty

/-- An entry is a leaf and nothing else. -/
def IsLeaf : ConditionEntry → Prop
  | .mk leaf all any => all = none ∧ any = none ∧ leaf.IsWhole

mutual

/-- The entry and every one inside it, outer ones first. -/
def subentries : ConditionEntry → List ConditionEntry
  | .mk leaf all any => .mk leaf all any :: (subentriesOfGroup all ++ subentriesOfGroup any)

/-- The entries inside a group that may be absent. -/
def subentriesOfGroup : Option (List ConditionEntry) → List ConditionEntry
  | none => []
  | some members => subentriesOfEach members

/-- The entries inside entries in a row. -/
def subentriesOfEach : List ConditionEntry → List ConditionEntry
  | [] => []
  | e :: rest => subentries e ++ subentriesOfEach rest

end

mutual

/-- The entry without the tests beside a group, at any depth. -/
def withoutStrays : ConditionEntry → ConditionEntry
  | .mk leaf all any =>
    .mk (if all.isSome || any.isSome then leaf.withoutTests else leaf) (groupWithoutStrays all)
      (groupWithoutStrays any)

/-- A group that may be absent, without the tests beside the groups inside it. -/
def groupWithoutStrays : Option (List ConditionEntry) → Option (List ConditionEntry)
  | none => none
  | some members => some (eachWithoutStrays members)

/-- Entries in a row without the tests beside groups. -/
def eachWithoutStrays : List ConditionEntry → List ConditionEntry
  | [] => []
  | e :: rest => withoutStrays e :: eachWithoutStrays rest

end

/-- No entry has a test beside a group, at any depth. -/
def TestsInLeaves (e : ConditionEntry) : Prop :=
  ∀ e' ∈ e.subentries, e'.hasGroup = true → e'.leafEntry.hasTest = false

mutual

/-- A condition is what an entry says, and the entry says nothing else. -/
inductive Says (c : Catalog) : ConditionEntry → Condition → Prop where
  | all {leaf : LeafEntry} {members : List ConditionEntry} {conditions : List Condition}
    (hleaf : leaf.IsEmpty) (h : SaysEach c members conditions) :
    Says c (.mk leaf (some members) none) (.all conditions)
  | any {leaf : LeafEntry} {members : List ConditionEntry} {conditions : List Condition}
    (hleaf : leaf.IsEmpty) (h : SaysEach c members conditions) :
    Says c (.mk leaf none (some members)) (.any conditions)
  | leaf {leaf : LeafEntry} {l : Leaf} (h : leaf.Says c l) : Says c (.mk leaf none none) (.leaf l)

/-- Conditions are what entries in a row say, one by one. -/
inductive SaysEach (c : Catalog) : List ConditionEntry → List Condition → Prop where
  | nil : SaysEach c [] []
  | cons {e : ConditionEntry} {rest : List ConditionEntry} {condition : Condition}
    {conditions : List Condition} (h : Says c e condition) (hrest : SaysEach c rest conditions) :
    SaysEach c (e :: rest) (condition :: conditions)

end

/-! ### From tests in leaves to what entries say -/

theorem isEmpty_of_testsInLeaves {leaf : LeafEntry} {all any : Option (List ConditionEntry)}
    (h : TestsInLeaves (.mk leaf all any)) (hgroup : hasGroup (.mk leaf all any) = true)
    (hoperand : ¬ leaf.hasOperand = true) : leaf.IsEmpty :=
  ⟨by simpa using hoperand, h _ (by rw [subentries]; exact List.mem_cons_self) hgroup⟩

mutual

/-- The condition that an entry is compiled to is what it says, if its tests are in leaves. -/
theorem says_of_compile {c : Catalog} : ∀ (e : ConditionEntry) {cond : Condition},
    compile c e = .ok cond → e.TestsInLeaves → e.Says c cond
  | .mk leaf (some members) (some _), cond, h, _ => by simp only [compile] at h; cases h
  | .mk leaf (some members) none, cond, h, htests => by
    simp only [compile] at h
    split at h
    · cases h
    next hoperand =>
    split at h
    · cases h
    obtain ⟨conditions, hconditions, rfl⟩ := exists_of_map_eq_ok h
    refine .all (isEmpty_of_testsInLeaves htests rfl hoperand) ?_
    refine says_of_compileEach members hconditions fun e' he' => htests e' ?_
    rw [subentries, subentriesOfGroup]
    exact List.mem_cons_of_mem _ (List.mem_append_left _ he')
  | .mk leaf none (some members), cond, h, htests => by
    simp only [compile] at h
    split at h
    · cases h
    next hoperand =>
    split at h
    · cases h
    obtain ⟨conditions, hconditions, rfl⟩ := exists_of_map_eq_ok h
    refine .any (isEmpty_of_testsInLeaves htests rfl hoperand) ?_
    refine says_of_compileEach members hconditions fun e' he' => htests e' ?_
    rw [subentries, subentriesOfGroup, subentriesOfGroup]
    exact List.mem_cons_of_mem _ he'
  | .mk leaf none none, cond, h, _ => by
    simp only [compile] at h
    obtain ⟨l, hl, rfl⟩ := exists_of_map_eq_ok h
    exact .leaf (LeafEntry.says_of_compile hl)

theorem says_of_compileEach {c : Catalog} : ∀ (entries : List ConditionEntry) {cs : List Condition},
    compileEach c entries = .ok cs →
    (∀ e' ∈ subentriesOfEach entries, e'.hasGroup = true → e'.leafEntry.hasTest = false) →
    SaysEach c entries cs
  | [], cs, h, _ => by
    simp only [compileEach] at h
    cases h
    exact .nil
  | e :: rest, cs, h, htests => by
    simp only [compileEach] at h
    obtain ⟨cond, hcond, h⟩ := exists_of_bind_eq_ok h
    obtain ⟨others, hothers, h⟩ := exists_of_bind_eq_ok h
    cases h
    rw [subentriesOfEach, List.forall_mem_append] at htests
    exact .cons (says_of_compile e hcond htests.1) (says_of_compileEach rest hothers htests.2)

end

/-! ### From what entries say to whole entries -/

mutual

/-- An entry that says a condition and nothing else is whole, and so are those inside it. -/
theorem Says.whole {c : Catalog} : ∀ {e : ConditionEntry} {cond : Condition}, e.Says c cond →
    ∀ e' ∈ e.subentries, e'.IsGroup ∨ e'.IsLeaf
  | .mk leaf (some members) none, _, .all hleaf h => by
    rw [subentries, List.forall_mem_cons, subentriesOfGroup, subentriesOfGroup, List.append_nil]
    exact ⟨.inl ⟨Bool.noConfusion, hleaf⟩, h.whole⟩
  | .mk leaf none (some members), _, .any hleaf h => by
    rw [subentries, List.forall_mem_cons, subentriesOfGroup, subentriesOfGroup, List.nil_append]
    exact ⟨.inl ⟨Bool.noConfusion, hleaf⟩, h.whole⟩
  | .mk leaf none none, _, .leaf h => by
    rw [subentries, List.forall_mem_cons, subentriesOfGroup, List.append_nil]
    exact ⟨.inr ⟨rfl, rfl, h.isWhole⟩, nofun⟩

theorem SaysEach.whole {c : Catalog} : ∀ {entries : List ConditionEntry} {cs : List Condition},
    SaysEach c entries cs → ∀ e' ∈ subentriesOfEach entries, e'.IsGroup ∨ e'.IsLeaf
  | [], _, .nil => by
    rw [subentriesOfEach]
    exact nofun
  | e :: rest, _, .cons h hrest => by
    rw [subentriesOfEach, List.forall_mem_append]
    exact ⟨h.whole, hrest.whole⟩

end

theorem hasTest_eq_false_of_whole {e : ConditionEntry} (h : e.IsGroup ∨ e.IsLeaf)
    (hgroup : e.hasGroup = true) : e.leafEntry.hasTest = false := by
  obtain ⟨leaf, all, any⟩ := e
  rcases h with ⟨-, hleaf⟩ | ⟨rfl, rfl, -⟩
  · exact hleaf.2
  · cases hgroup

/-! ### Tests beside groups -/

theorem isEmpty_eachWithoutStrays (members : List ConditionEntry) :
    (eachWithoutStrays members).isEmpty = members.isEmpty := by
  cases members <;> simp only [eachWithoutStrays, List.isEmpty_nil, List.isEmpty_cons]

mutual

/-- Tests beside groups are passed over. -/
theorem compile_withoutStrays (c : Catalog) :
    ∀ e : ConditionEntry, compile c e.withoutStrays = compile c e
  | .mk leaf (some members) (some others) => by
    simp only [withoutStrays, groupWithoutStrays, compile]
  | .mk leaf (some members) none => by
    simp only [withoutStrays, groupWithoutStrays, compile, compileEach_withoutStrays c members,
      isEmpty_eachWithoutStrays]
    rfl
  | .mk leaf none (some members) => by
    simp only [withoutStrays, groupWithoutStrays, compile, compileEach_withoutStrays c members,
      isEmpty_eachWithoutStrays]
    rfl
  | .mk leaf none none => rfl

theorem compileEach_withoutStrays (c : Catalog) : ∀ entries : List ConditionEntry,
    compileEach c (eachWithoutStrays entries) = compileEach c entries
  | [] => by simp only [eachWithoutStrays]
  | e :: rest => by
    simp only [eachWithoutStrays, compileEach, compile_withoutStrays c e,
      compileEach_withoutStrays c rest]

end

mutual

theorem testsInLeaves_withoutStrays : ∀ e : ConditionEntry, e.withoutStrays.TestsInLeaves
  | .mk leaf all any => by
    unfold TestsInLeaves
    rw [withoutStrays, subentries, List.forall_mem_cons, List.forall_mem_append]
    refine ⟨fun hgroup => ?_, testsInLeaves_groupWithoutStrays all,
      testsInLeaves_groupWithoutStrays any⟩
    cases all with
    | some members => rfl
    | none =>
      cases any with
      | some members => rfl
      | none => cases hgroup

theorem testsInLeaves_groupWithoutStrays : ∀ group : Option (List ConditionEntry),
    ∀ e' ∈ subentriesOfGroup (groupWithoutStrays group), e'.hasGroup = true →
      e'.leafEntry.hasTest = false
  | none => by
    rw [groupWithoutStrays, subentriesOfGroup]
    exact nofun
  | some members => by
    rw [groupWithoutStrays, subentriesOfGroup]
    exact testsInLeaves_eachWithoutStrays members

theorem testsInLeaves_eachWithoutStrays : ∀ entries : List ConditionEntry,
    ∀ e' ∈ subentriesOfEach (eachWithoutStrays entries), e'.hasGroup = true →
      e'.leafEntry.hasTest = false
  | [] => by
    rw [eachWithoutStrays, subentriesOfEach]
    exact nofun
  | e :: rest => by
    rw [eachWithoutStrays, subentriesOfEach, List.forall_mem_append]
    exact ⟨testsInLeaves_withoutStrays e, testsInLeaves_eachWithoutStrays rest⟩

end

/-- **A condition is what its entry says exactly if the tests are in leaves.** Then the entry and all
entries inside it are whole groups and whole leaves. Nothing but the tests beside groups is passed
over: without them the condition is the same, and it is what the entry says. -/
theorem says_iff_testsInLeaves {c : Catalog} {e : ConditionEntry} {cond : Condition}
    (h : compile c e = .ok cond) :
    (e.Says c cond ↔ e.TestsInLeaves) ∧
    ((∀ e' ∈ e.subentries, e'.IsGroup ∨ e'.IsLeaf) ↔ e.TestsInLeaves) ∧
    compile c e.withoutStrays = .ok cond ∧ e.withoutStrays.Says c cond := by
  have hwhole : (∀ e' ∈ e.subentries, e'.IsGroup ∨ e'.IsLeaf) → e.TestsInLeaves :=
    fun hwhole e' he' => hasTest_eq_false_of_whole (hwhole e' he')
  have hwithout : compile c e.withoutStrays = .ok cond := (compile_withoutStrays c e).trans h
  refine ⟨⟨fun hsaid => hwhole hsaid.whole, says_of_compile e h⟩,
    ⟨hwhole, fun htests => (says_of_compile e h htests).whole⟩, hwithout, ?_⟩
  exact says_of_compile e.withoutStrays hwithout (testsInLeaves_withoutStrays e)

/-- An entry with a word of flags in a group, beside a group with a signal. -/
def dockedOrUp : ConditionEntry :=
  let blank : LeafEntry := ⟨none, none, none, [], none, none, none, none⟩
  .mk blank none (some [
    .mk { blank with flags := some "ship", anyOf := some ["docked"] } none none,
    .mk blank (some [
      .mk { blank with signal := some "gear", comparisons := [(.eq, .string "up")] } none none])
      none])

theorem says_iff_testsInLeaves_dockedOrUp :
    ∃ cond, compile tower dockedOrUp = .ok cond ∧ cond.leaves.length = 2 ∧
      dockedOrUp.subentries.length = 4 ∧ dockedOrUp.TestsInLeaves ∧ dockedOrUp.Says tower cond ∧
      ∀ e' ∈ dockedOrUp.subentries, e'.IsGroup ∨ e'.IsLeaf := by
  have hcompile : (compile tower dockedOrUp).toOption.any
      (fun cond => decide (cond.leaves.length = 2)) = true := by decide +kernel
  obtain ⟨cond, hcond, hleaves⟩ := exists_of_any_toOption hcompile
  have htests : dockedOrUp.subentries.all
      (fun e => !e.hasGroup || !e.leafEntry.hasTest) = true := by decide +kernel
  have htests : dockedOrUp.TestsInLeaves := by
    intro e' he' hgroup
    simpa [hgroup] using List.all_eq_true.mp htests e' he'
  obtain ⟨hsaid, hwhole, -⟩ := says_iff_testsInLeaves hcond
  exact ⟨cond, hcond, of_decide_eq_true hleaves, by decide +kernel, htests, hsaid.mpr htests,
    hwhole.mpr htests⟩

/-- One rule whose group has a test beside it. -/
def strayRules : String :=
  "rules:\n- title: T\n  when:\n    all:\n    - all:\n      - field: x\n        eq: 1\n" ++
    "      gt: 5\n  then:\n  - type: log\n    message: m\n"

/-- A text is accepted with an entry that is neither a group nor a leaf: nothing becomes of the test
beside its group. -/
theorem stray_test_accepted :
    ∃ rules, Rule.listOfText tower strayRules = .ok rules ∧
      rules.map (fun r => r.leaves.length) = [1] ∧
      ∃ entries, (Yaml.Node.ofText? strayRules).bind RuleEntry.listOfNode? = some entries ∧
        ∃ r ∈ entries, ∃ e ∈ r.all.getD [], e.hasGroup = true ∧ e.leafEntry.hasTest = true ∧
          ¬ (e.IsGroup ∨ e.IsLeaf) ∧ ∃ cond, compile tower e = .ok cond := by
  have hload : (Rule.listOfText tower strayRules).toOption.any (fun rules =>
      decide (rules.map (fun r => r.leaves.length) = [1])) = true := by decide +kernel
  have hparse : ((Yaml.Node.ofText? strayRules).bind RuleEntry.listOfNode?).any (fun entries =>
      entries.any fun r => (r.all.getD []).any fun e =>
        e.hasGroup && e.leafEntry.hasTest && (compile tower e).toOption.any fun _ => true) = true := by
    decide +kernel
  obtain ⟨rules, hrules, hleaves⟩ := exists_of_any_toOption hload
  obtain ⟨entries, hentries, hany⟩ := (Option.any_eq_true _ _).mp hparse
  simp only [List.any_eq_true, Bool.and_eq_true] at hany
  obtain ⟨r, hr, e, he, ⟨hgroup, htest⟩, hcompile⟩ := hany
  obtain ⟨cond, hcond, -⟩ := exists_of_any_toOption hcompile
  refine ⟨rules, hrules, of_decide_eq_true hleaves, entries, hentries, r, hr, e, he, hgroup, htest,
    fun hwhole => ?_, cond, hcond⟩
  rw [hasTest_eq_false_of_whole hwhole hgroup] at htest
  cases htest

end ConditionEntry

end Telltale
