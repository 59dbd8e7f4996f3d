import Mathlib.Data.List.Nodup
import Telltale.Proofs.Catalog.Accepted
import Telltale.Proofs.Table.Pairs
import Telltale.Rule.Document

/-!
# Rules that a document brings

What the checks of a rules document promise of the rules that it brings.

* `RuleEntry.compileFrom_eq_ok_iff` — a row of entries brings its rules one by one, if they have
  different identifiers, none of which was taken before.
* `Rule.nodup_ids_of_listOfText` — so does a text.
* `Leaf.Loaded` — what is promised of a leaf: its operand and its test belong together, and the
  bits that it names are those of its group.
* `Condition.Loaded` — what is promised of a condition: no group in it is empty, and its leaves are
  loaded.
* `RuleEntry.Passed` — the checks that an entry of a rule went through.
* `Rule.Has.loaded` — the groups of a rule of a text are loaded, and so is every condition inside
  them.
* `RuleSet.Loaded` — a set of rules that some text brings; no two of them have one identifier
  (`RuleSet.Loaded.eq_of_id`).
-/

namespace Telltale

/-! ## Identifiers -/

namespace RuleEntry

variable {c : Catalog} {e : RuleEntry} {r : Rule} {number : Nat} {earlier : List String}
  {entries rest : List RuleEntry} {rules : List Rule}

theorem compileFrom_cons_of_error {fault : EntryFault} (h : e.compile c = .error fault) :
    compileFrom c number earlier (e :: rest) = .error (.entry number fault) := by
  rw [compileFrom, h]
  rfl

theorem compileFrom_cons_of_mem (h : e.compile c = .ok r) (hr : r.id ∈ earlier) :
    compileFrom c number earlier (e :: rest) = .error (.duplicateId r.id) := by
  rw [compileFrom, h]
  show (if earlier.contains r.id = true then _ else _) = _
  rw [if_pos (by simpa using hr)]

theorem compileFrom_cons_of_notMem (h : e.compile c = .ok r) (hr : r.id ∉ earlier) :
    compileFrom c number earlier (e :: rest) =
      (compileFrom c (number + 1) (r.id :: earlier) rest).map (r :: ·) := by
  rw [compileFrom, h]
  show (if earlier.contains r.id = true then _ else _) = _
  rw [if_neg (by simpa using hr)]
  rfl

/-- Entries in a row bring their rules one by one, if these have different identifiers and none of
the earlier ones. -/
theorem compileFrom_eq_ok_iff :
    compileFrom c number earlier entries = .ok rules ↔
      List.Forall₂ (fun e r => e.compile c = .ok r) entries rules ∧
      (rules.map (·.id)).Nodup ∧ ∀ r ∈ rules, r.id ∉ earlier := by
  induction entries generalizing number earlier rules with
  | nil =>
    rw [compileFrom, List.forall₂_nil_left_iff, Except.ok.injEq, eq_comm]
    constructor
    · rintro rfl
      exact ⟨rfl, .nil, nofun⟩
    · exact fun h => h.1
  | cons e rest ih =>
    rw [List.forall₂_cons_left_iff]
    cases hcompile : e.compile c with
    | error fault =>
      rw [compileFrom_cons_of_error hcompile]
      simp
    | ok r =>
      by_cases hr : r.id ∈ earlier
      · rw [compileFrom_cons_of_mem hcompile hr]
        constructor
        · exact nofun
        · rintro ⟨⟨r', others, hr', -, rfl⟩, -, hfresh⟩
          cases hr'
          exact absurd hr (hfresh r List.mem_cons_self)
      · rw [compileFrom_cons_of_notMem hcompile hr]
        constructor
        · intro h
          obtain ⟨others, hothers, rfl⟩ := exists_of_map_eq_ok h
          obtain ⟨hcompiled, hnodup, hfresh⟩ := ih.mp hothers
          refine ⟨⟨r, others, rfl, hcompiled, rfl⟩, List.nodup_cons.mpr ⟨?_, hnodup⟩, ?_⟩
          · intro hmem
            obtain ⟨r', hr', hid⟩ := List.mem_map.mp hmem
            exact hfresh r' hr' (by rw [hid]; exact List.mem_cons_self)
          · refine List.forall_mem_cons.mpr ⟨hr, fun r' hr' hmem => ?_⟩
            exact hfresh r' hr' (List.mem_cons_of_mem _ hmem)
        · rintro ⟨⟨r', others, hr', hcompiled, rfl⟩, hnodup, hfresh⟩
          cases hr'
          obtain ⟨hid, hnodup⟩ := List.nodup_cons.mp hnodup
          have hlater : ∀ r' ∈ others, r'.id ∉ r.id :: earlier := by
            intro r' hr' hmem
            rcases List.mem_cons.mp hmem with heq | hmem
            · exact hid (List.mem_map.mpr ⟨r', hr', heq⟩)
            · exact hfresh r' (List.mem_cons_of_mem _ hr') hmem
          have hothers : compileFrom c (number + 1) (r.id :: earlier) rest = .ok others :=
            ih.mpr ⟨hcompiled, hnodup, hlater⟩
          rw [hothers]
          rfl

/-- Entries that bring their rules leave the rest to those behind them. -/
theorem compileFrom_append {before : List RuleEntry}
    (h : compileFrom c number earlier before = .ok rules) :
    compileFrom c number earlier (before ++ rest) =
      (compileFrom c (number + before.length) ((rules.map (·.id)).reverse ++ earlier) rest).map
        (rules ++ ·) := by
  induction before generalizing number earlier rules with
  | nil =>
    cases h
    show compileFrom c number earlier rest = (compileFrom c number earlier rest).map ([] ++ ·)
    cases compileFrom c number earlier rest <;> rfl
  | cons e before ih =>
    obtain ⟨hcompiled, hnodup, hfresh⟩ := compileFrom_eq_ok_iff.mp h
    obtain ⟨r, others, hr, -, rfl⟩ := List.forall₂_cons_left_iff.mp hcompiled
    have hnew : r.id ∉ earlier := hfresh r List.mem_cons_self
    rw [compileFrom_cons_of_notMem hr hnew] at h
    obtain ⟨_, hothers, heq⟩ := exists_of_map_eq_ok h
    cases heq
    rw [List.cons_append, compileFrom_cons_of_notMem hr hnew, ih hothers]
    simp only [List.length_cons, List.map_cons, List.reverse_cons, List.append_assoc,
      List.singleton_append, Nat.add_assoc, Nat.add_comm 1]
    cases compileFrom c (number + (before.length + 1)) _ rest <;> rfl

/-- Every rule of a row of entries is the rule of one of them. -/
theorem exists_of_mem_compileFrom (h : compileFrom c number earlier entries = .ok rules)
    (hr : r ∈ rules) : ∃ e ∈ entries, e.compile c = .ok r :=
  exists_of_mem_forall₂ (compileFrom_eq_ok_iff.mp h).1 hr

end RuleEntry

/-- The rules of a text have different identifiers. -/
theorem Rule.nodup_ids_of_listOfText {c : Catalog} {text : String} {rules : List Rule}
    (h : Rule.listOfText c text = .ok rules) : (rules.map (·.id)).Nodup := by
  unfold Rule.listOfText at h
  split at h
  · cases h
  · exact (RuleEntry.compileFrom_eq_ok_iff.mp (eq_ok_of_mapError h)).2.1

example : ((Rule.listOfText ⟨1, ⟨[], []⟩, []⟩ ("rules:\n- title: A\n  when:\n    all:\n" ++
    "    - field: x\n      eq: 1\n  then:\n  - type: set_flag\n    token: T\n")).toOption.map
      fun rules => rules.map (·.id)) = some ["a"] := by decide +kernel

/-! ## Leaves -/

/-- What the checks of a rules document promise of a leaf. -/
inductive Leaf.Loaded (c : Catalog) : Leaf → Prop where
  | signal {id : String} {test : Test} (hhas : c.has id = true)
    (hcomparing : ∀ allOf anyOf noneOf, test ≠ .bits allOf anyOf noneOf)
    (htest : LeafEntry.testFault? test = none)
    (hliterals : LeafEntry.literalFault? c (.signal id) test = none) :
    Loaded c ⟨.signal id, test⟩
  | field {path : String} {test : Test} (hpath : Text.isBlankText path = false)
    (hcomparing : ∀ allOf anyOf noneOf, test ≠ .bits allOf anyOf noneOf)
    (htest : LeafEntry.testFault? test = none) :
    Loaded c ⟨.field path, test⟩
  | flags {group : String} {g : FlagGroup} {allOf anyOf noneOf : List Nat}
    (hgroup : c.vocabulary.group? group = some g)
    (hbits : ∀ i ∈ allOf ++ anyOf ++ noneOf, ∃ name, Table.get? g.bits name = some i)
    (hne : allOf ++ anyOf ++ noneOf ≠ []) :
    Loaded c ⟨.flags group g.path, .bits allOf anyOf noneOf⟩

namespace LeafEntry

variable {c : Catalog} {e : LeafEntry}

/-- The bits of a group are those that the names stand for, one by one. -/
theorem forall₂_of_bitsOf {group : String} {g : FlagGroup} {names : Option (List String)}
    {bits : List Nat} (hgroup : c.vocabulary.group? group = some g)
    (h : bitsOf c group names = .ok bits) :
    List.Forall₂ (fun name i => Table.get? g.bits name = some i) (names.getD []) bits := by
  unfold bitsOf at h
  generalize names.getD [] = names at h ⊢
  induction names generalizing bits with
  | nil => cases h; exact .nil
  | cons name rest ih =>
    rw [List.mapM_cons] at h
    obtain ⟨i, hi, h⟩ := exists_of_bind_eq_ok h
    obtain ⟨others, hothers, h⟩ := exists_of_bind_eq_ok h
    cases h
    have hname : Table.get? g.bits name = some i := by
      unfold bitOf at hi
      rw [hgroup, Option.bind_some] at hi
      split at hi
      · next hget => cases hi; exact hget
      · cases hi
    exact .cons hname (ih hothers)

theorem mem_bits_of_bitsOf {group : String} {g : FlagGroup} {names : Option (List String)}
    {bits : List Nat} (hgroup : c.vocabulary.group? group = some g)
    (h : bitsOf c group names = .ok bits) : ∀ i ∈ bits, ∃ name, Table.get? g.bits name = some i := by
  intro i hi
  obtain ⟨name, -, hname⟩ := exists_of_mem_forall₂ (forall₂_of_bitsOf hgroup h) hi
  exact ⟨name, hname⟩

/-- The test of an operand that is no word of flags is the only one of its entry. -/
theorem tests_of_comparingTest {test : Test} (h : e.comparingTest = .ok test) :
    e.comparingTests = [test] ∧ e.hasBits = false := by
  unfold comparingTest at h
  split at h
  · cases h
  next hbits =>
  split at h
  · next htests => cases h; exact ⟨htests, by simpa using hbits⟩
  · cases h

theorem ne_bits_of_comparingTest {test : Test} (h : e.comparingTest = .ok test) :
    ∀ allOf anyOf noneOf, test ≠ .bits allOf anyOf noneOf := by
  rintro allOf anyOf noneOf rfl
  have hmem : Test.bits allOf anyOf noneOf ∈ e.comparingTests := by
    rw [(tests_of_comparingTest h).1]
    exact List.mem_singleton_self _
  simp [comparingTests] at hmem

/-- The test of a word of flags is made of the bits that its entry names, and there are some. -/
theorem parts_of_bitTest {group : String} {test : Test} (h : e.bitTest c group = .ok test) :
    ∃ allOf anyOf noneOf, test = .bits allOf anyOf noneOf ∧ e.comparingTests = [] ∧
      bitsOf c group e.allOf = .ok allOf ∧ bitsOf c group e.anyOf = .ok anyOf ∧
      bitsOf c group e.noneOf = .ok noneOf ∧ allOf ++ anyOf ++ noneOf ≠ [] := by
  unfold bitTest at h
  split at h
  · cases h
  next htests =>
  split at h
  · cases h
  obtain ⟨allOf, hall, h⟩ := exists_of_bind_eq_ok h
  obtain ⟨anyOf, hany, h⟩ := exists_of_bind_eq_ok h
  obtain ⟨noneOf, hnone, h⟩ := exists_of_bind_eq_ok h
  split at h
  · cases h
  · next hsome =>
    cases h
    exact ⟨allOf, anyOf, noneOf, rfl, by simpa using htests, hall, hany, hnone,
      by simpa [List.isEmpty_iff, and_assoc] using hsome⟩

/-- The bits of a test of flags are those of its group, and there are some. -/
theorem bits_of_bitTest {group : String} {g : FlagGroup} {test : Test}
    (hgroup : c.vocabulary.group? group = some g) (h : e.bitTest c group = .ok test) :
    ∃ allOf anyOf noneOf, test = .bits allOf anyOf noneOf ∧
      (∀ i ∈ allOf ++ anyOf ++ noneOf, ∃ name, Table.get? g.bits name = some i) ∧
      allOf ++ anyOf ++ noneOf ≠ [] := by
  obtain ⟨allOf, anyOf, noneOf, rfl, -, hall, hany, hnone, hne⟩ := parts_of_bitTest h
  refine ⟨allOf, anyOf, noneOf, rfl, ?_, hne⟩
  simp only [List.forall_mem_append]
  exact ⟨⟨mem_bits_of_bitsOf hgroup hall, mem_bits_of_bitsOf hgroup hany⟩,
    mem_bits_of_bitsOf hgroup hnone⟩

/-- The operand of an entry is the only one that it names, and the catalog knows it. -/
theorem operand_cases {operand : Operand} (h : e.operand c = .ok operand) :
    (∃ id, operand = .signal id ∧ c.has id = true ∧
      e.signal = some id ∧ e.field = none ∧ e.flags = none) ∨
    (∃ path, operand = .field path ∧ Text.isBlankText path = false ∧
      e.signal = none ∧ e.field = some path ∧ e.flags = none) ∨
    ∃ group g, operand = .flags group g.path ∧ c.vocabulary.group? group = some g ∧
      e.signal = none ∧ e.field = none ∧ e.flags = some group := by
  unfold LeafEntry.operand at h
  split at h
  · next id hsignal hfield hflags =>
    split at h
    · next hhas => cases h; exact .inl ⟨id, rfl, hhas, hsignal, hfield, hflags⟩
    · cases h
  · next path hsignal hfield hflags =>
    split at h
    · cases h
    · next hpath =>
      cases h
      exact .inr (.inl ⟨path, rfl, by simpa using hpath, hsignal, hfield, hflags⟩)
  · next group hsignal hfield hflags =>
    split at h
    · next g hgroup =>
      cases h
      exact .inr (.inr ⟨group, g, rfl, hgroup, hsignal, hfield, hflags⟩)
    · cases h
  · cases h
  · cases h

/-- The parts of the leaf of an entry, each with the check that it passed. -/
theorem parts_of_compile {leaf : Leaf} (h : e.compile c = .ok leaf) :
    e.operand c = .ok leaf.operand ∧
    (∀ group path, leaf.operand = .flags group path → e.bitTest c group = .ok leaf.test) ∧
    ((∀ group path, leaf.operand ≠ .flags group path) → e.comparingTest = .ok leaf.test) ∧
    testFault? leaf.test = none ∧ literalFault? c leaf.operand leaf.test = none := by
  unfold compile at h
  obtain ⟨operand, hoperand, h⟩ := exists_of_bind_eq_ok h
  -- the operand says how the test is made, and the checks after that are the same for all
  cases operand with
  | signal id | field path =>
    obtain ⟨test, htest, h⟩ := exists_of_bind_eq_ok h
    dsimp only at h
    split at h
    · cases h
    · next hfault =>
      cases h
      refine ⟨hoperand, ?_, fun _ => htest, Option.or_eq_none_iff.mp hfault⟩
      intro group path hflags
      cases hflags
  | flags group path =>
    obtain ⟨test, htest, h⟩ := exists_of_bind_eq_ok h
    dsimp only at h
    split at h
    · cases h
    · next hfault =>
      cases h
      refine ⟨hoperand, ?_, fun hother => absurd rfl (hother group path),
        Option.or_eq_none_iff.mp hfault⟩
      intro group' path' hflags
      cases hflags
      exact htest

theorem loaded_of_compile {leaf : Leaf} (h : e.compile c = .ok leaf) : leaf.Loaded c := by
  obtain ⟨hoperand, hbitTest, hcomparing, hfault, hliterals⟩ := parts_of_compile h
  obtain ⟨operand, test⟩ := leaf
  dsimp only at hoperand hbitTest hcomparing hfault hliterals
  rcases operand_cases hoperand with
    ⟨id, rfl, hhas, -⟩ | ⟨path, rfl, hpath, -⟩ | ⟨group, g, rfl, hgroup, -⟩
  · have htest := hcomparing fun _ _ => Operand.noConfusion
    exact .signal hhas (ne_bits_of_comparingTest htest) hfault hliterals
  · have htest := hcomparing fun _ _ => Operand.noConfusion
    exact .field hpath (ne_bits_of_comparingTest htest) hfault
  · have htest := hbitTest group g.path rfl
    obtain ⟨allOf, anyOf, noneOf, rfl, hbits, hne⟩ := bits_of_bitTest hgroup htest
    exact .flags hgroup hbits hne

end LeafEntry

/-! ## Conditions -/

/-- What the checks of a rules document promise of a condition. -/
inductive Condition.Loaded (c : Catalog) : Condition → Prop where
  | all {members : List Condition} (hne : members ≠ []) (h : ∀ m ∈ members, Loaded c m) :
    Loaded c (.all members)
  | any {members : List Condition} (hne : members ≠ []) (h : ∀ m ∈ members, Loaded c m) :
    Loaded c (.any members)
  | leaf {l : Leaf} (h : l.Loaded c) : Loaded c (.leaf l)

theorem Condition.mem_leavesOf {members : List Condition} {m : Condition} (hm : m ∈ members) {l : Leaf}
    (hl : l ∈ m.leaves) : l ∈ leavesOf members := by
  induction members with
  | nil => cases hm
  | cons m' rest ih =>
    rw [leavesOf]
    rcases List.mem_cons.mp hm with rfl | hm
    · exact List.mem_append_left _ hl
    · exact List.mem_append_right _ (ih hm)

namespace ConditionEntry

theorem length_of_compileEach {c : Catalog} {entries : List ConditionEntry} {cs : List Condition}
    (h : compileEach c entries = .ok cs) : cs.length = entries.length := by
  induction entries generalizing cs with
  | nil => simp only [compileEach] at h; cases h; rfl
  | cons e rest ih =>
    simp only [compileEach] at h
    obtain ⟨cond, -, h⟩ := exists_of_bind_eq_ok h
    obtain ⟨others, hothers, h⟩ := exists_of_bind_eq_ok h
    cases h
    simp [ih hothers]

theorem ne_nil_of_compileEach {c : Catalog} {entries : List ConditionEntry} {cs : List Condition}
    (hne : entries ≠ []) (h : compileEach c entries = .ok cs) : cs ≠ [] := by
  intro hnil
  rw [hnil] at h
  exact hne (List.eq_nil_of_length_eq_zero (length_of_compileEach h).symm)

mutual

/-- The condition of an entry is loaded. -/
theorem loaded_of_compile {c : Catalog} :
    ∀ (e : ConditionEntry) {cond : Condition}, compile c e = .ok cond → cond.Loaded c
  | .mk leaf (some members) (some _), cond, h => by simp only [compile] at h; cases h
  | .mk leaf (some members) none, cond, h => by
    simp only [compile] at h
    split at h
    · cases h
    · split at h
      · cases h
      · next hne =>
        obtain ⟨cs, hcs, rfl⟩ := exists_of_map_eq_ok h
        exact .all (ne_nil_of_compileEach (by simpa using hne) hcs)
          (loaded_of_compileEach members hcs)
  | .mk leaf none (some members), cond, h => by
    simp only [compile] at h
    split at h
    · cases h
    · split at h
      · cases h
      · next hne =>
        obtain ⟨cs, hcs, rfl⟩ := exists_of_map_eq_ok h
        exact .any (ne_nil_of_compileEach (by simpa using hne) hcs)
          (loaded_of_compileEach members hcs)
  | .mk leaf none none, cond, h => by
    simp only [compile] at h
    obtain ⟨l, hl, rfl⟩ := exists_of_map_eq_ok h
    exact .leaf (LeafEntry.loaded_of_compile hl)

theorem loaded_of_compileEach {c : Catalog} :
    ∀ (entries : List ConditionEntry) {cs : List Condition}, compileEach c entries = .ok cs →
      ∀ m ∈ cs, m.Loaded c
  | [], cs, h => by simp only [compileEach] at h; cases h; simp
  | e :: rest, cs, h => by
    simp only [compileEach] at h
    obtain ⟨cond, hcond, h⟩ := exists_of_bind_eq_ok h
    obtain ⟨others, hothers, h⟩ := exists_of_bind_eq_ok h
    cases h
    intro m hm
    rcases List.mem_cons.mp hm with rfl | hm
    · exact loaded_of_compile e hcond
    · exact loaded_of_compileEach rest hothers m hm

end

/-- A group that is there is not empty, and its members are loaded. -/
theorem loaded_of_compileGroup {c : Catalog} {name : String}
    {entries : Option (List ConditionEntry)} {members : List Condition}
    (h : compileGroup c name entries = .ok (some members)) :
    members ≠ [] ∧ ∀ m ∈ members, m.Loaded c := by
  unfold compileGroup at h
  split at h
  · cases h
  · cases h
  · next entries hne =>
    obtain ⟨cs, hcs, heq⟩ := exists_of_map_eq_ok h
    cases heq
    exact ⟨ne_nil_of_compileEach (fun hnil => hne (by rw [hnil])) hcs,
      loaded_of_compileEach entries hcs⟩

end ConditionEntry

/-! ## Rules -/

/-- The conditions of a rule: its groups, and whatever is inside them at any depth. -/
inductive Rule.Has (r : Rule) : Condition → Prop where
  | all {members : List Condition} (h : r.all = some members) : Has r (.all members)
  | any {members : List Condition} (h : r.any = some members) : Has r (.any members)
  | inAll {members : List Condition} {m : Condition} (h : Has r (.all members)) (hm : m ∈ members) :
    Has r m
  | inAny {members : List Condition} {m : Condition} (h : Has r (.any members)) (hm : m ∈ members) :
    Has r m

/-- What an entry went through on its way to a rule, and what became of its parts. -/
structure RuleEntry.Passed (c : Catalog) (e : RuleEntry) (r : Rule) : Prop where
  title : e.trimmedTitle ≠ ""
  id : Identifier.isValid e.ruleId = true
  events : ∀ event ∈ e.events, Text.isBlankText event = false
  grouped : e.all.isSome = true ∨ e.any.isSome = true
  all : ConditionEntry.compileGroup c "all" e.all = .ok r.all
  any : ConditionEntry.compileGroup c "any" e.any = .ok r.any
  onRise : e.onRise ≠ []
  actions : ∀ a ∈ e.onRise ++ e.onFall, a.fault? = none
  parts : r = ⟨e.ruleId, e.trimmedTitle, ⟨e.source, e.events⟩, r.all, r.any, e.onRise, e.onFall⟩

theorem RuleEntry.passed_of_compile {c : Catalog} {e : RuleEntry} {r : Rule}
    (h : e.compile c = .ok r) : e.Passed c r := by
  unfold compile at h
  split at h
  · cases h
  next htitle =>
  split at h
  · cases h
  next hid =>
  have h := eq_ok_of_mapError h
  unfold compileBody at h
  split at h
  · cases h
  next hevents =>
  split at h
  · cases h
  next hgrouped =>
  obtain ⟨all, hall, h⟩ := exists_of_bind_eq_ok h
  obtain ⟨any, hany, h⟩ := exists_of_bind_eq_ok h
  split at h
  · cases h
  next hrise =>
  split at h
  · cases h
  next hactions =>
  cases h
  exact {
    title := htitle
    id := by simpa using hid
    events := by simpa using hevents
    grouped := by
      cases hentries : e.all with
      | some _ => exact .inl rfl
      | none => simpa [hentries, Option.isSome_iff_ne_none] using hgrouped
    all := eq_ok_of_mapError hall
    any := eq_ok_of_mapError hany
    onRise := by simpa using hrise
    actions := List.findSome?_eq_none_iff.mp hactions
    parts := rfl }

theorem RuleEntry.loaded_of_compile {c : Catalog} {e : RuleEntry} {r : Rule}
    (h : e.compile c = .ok r) :
    (∀ members, r.all = some members → members ≠ [] ∧ ∀ m ∈ members, m.Loaded c) ∧
    ∀ members, r.any = some members → members ≠ [] ∧ ∀ m ∈ members, m.Loaded c := by
  have hpassed := passed_of_compile h
  constructor
  · intro members hmembers
    exact ConditionEntry.loaded_of_compileGroup (hmembers ▸ hpassed.all)
  · intro members hmembers
    exact ConditionEntry.loaded_of_compileGroup (hmembers ▸ hpassed.any)

theorem Rule.exists_of_mem_listOfText {c : Catalog} {text : String} {rules : List Rule}
    (h : Rule.listOfText c text = .ok rules) {r : Rule} (hr : r ∈ rules) :
    ∃ e : RuleEntry, e.compile c = .ok r := by
  unfold Rule.listOfText at h
  split at h
  · cases h
  · obtain ⟨e, -, he⟩ := RuleEntry.exists_of_mem_compileFrom (eq_ok_of_mapError h) hr
    exact ⟨e, he⟩

/-- The conditions of a rule that a text brings are loaded. -/
theorem Rule.Has.loaded {c : Catalog} {text : String} {rules : List Rule} {r : Rule}
    {cond : Condition} (hcond : r.Has cond) (hrules : Rule.listOfText c text = .ok rules)
    (hr : r ∈ rules) : cond.Loaded c := by
  obtain ⟨e, he⟩ := Rule.exists_of_mem_listOfText hrules hr
  obtain ⟨hall, hany⟩ := RuleEntry.loaded_of_compile he
  induction hcond with
  | all h => exact .all (hall _ h).1 (hall _ h).2
  | any h => exact .any (hany _ h).1 (hany _ h).2
  | inAll _ hm ih =>
    cases ih with
    | all _ h => exact h _ hm
  | inAny _ hm ih =>
    cases ih with
    | any _ h => exact h _ hm

/-! ## Rule sets -/

/-- The rules of a set are those that some text brings against a catalog. -/
def RuleSet.Loaded (c : Catalog) (s : RuleSet) : Prop :=
  ∃ text, Rule.listOfText c text = .ok s.rules

/-- Two rules of a loaded set with one identifier are the same. -/
theorem RuleSet.Loaded.eq_of_id {c : Catalog} {s : RuleSet} (h : s.Loaded c) {r r' : Rule}
    (hr : r ∈ s.rules) (hr' : r' ∈ s.rules) (hid : r.id = r'.id) : r = r' := by
  obtain ⟨text, htext⟩ := h
  exact List.inj_on_of_nodup_map (Rule.nodup_ids_of_listOfText htext) hr hr' hid

end Telltale
