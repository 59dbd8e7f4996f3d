import Mathlib.Data.List.Forall2
import Telltale.Proofs.Expr.Connectives
import Telltale.Proofs.Json.Equality
import Telltale.Proofs.Rule.Loaded
import Telltale.Rule.Judge

/-!
# Conditions as expressions

A condition that looks at no signal asks nothing that an expression could not ask. Rules and
expressions are evaluated by different means, one by verdicts and the other by values, and come to
the same.

* `Condition.toExpr?` — the expression of a condition: a conjunction or disjunction for a group, a
  comparison for a test of a field, the bits of the group for a test of flags.
* `Expr.fault?_bitTerms` and its like — these expressions pass the checks of a catalog.
* `Leaf.Loaded.agrees` — the verdict of a leaf is that of its expression.
* `Condition.Loaded.agrees` — so is that of a condition, by induction on what the checks of a rules
  document promise of it.
* `Rule.judge_iff_eval_toExpr` — a condition of a loaded rule holds, fails or is undecided exactly
  if its expression has a true value, a false one or none.
-/

namespace Telltale

/-! ## The expression of a condition -/

/-- Whether an operand is read from the documents and not derived. -/
def Operand.isRaw : Operand → Bool
  | .signal _ => false
  | .field _ | .flags .. => true

namespace Expr

/-- One bit of a flag group, by its index. -/
def bitOf (group : String) (i : Nat) : Expr := .bitfield none (some group) (.index i) none

/-- The comparison of what is found at a path. -/
def compareAt (path : String) (comparison : Comparison) (value : Json) : Expr :=
  .compare (.path path none) comparison value

/-- What a test of flags asks of the bits of the group. -/
def bitTerms (group : String) (allOf anyOf noneOf : List Nat) : List Expr :=
  allOf.map (bitOf group) ++ (if anyOf.isEmpty then [] else [.any (anyOf.map (bitOf group))]) ++
    noneOf.map fun i => .not (bitOf group i)

end Expr

/-- The expression of a leaf, if it looks at no signal. -/
def Leaf.toExpr? (l : Leaf) : Option Expr :=
  match l.operand, l.test with
  | .field path, .compare comparison value => some (.compareAt path comparison value)
  | .field path, .oneOf values => some (.any (values.map (.compareAt path .eq)))
  | .flags group _, .bits allOf anyOf noneOf =>
    some (.all (Expr.bitTerms group allOf anyOf noneOf))
  | _, _ => none

namespace Condition

mutual

/-- The expression of a condition, if no leaf of it looks at a signal. -/
def toExpr? : Condition → Option Expr
  | .all members => (toExprs? members).map .all
  | .any members => (toExprs? members).map .any
  | .leaf l => l.toExpr?

/-- The expressions of conditions in a row. -/
def toExprs? : List Condition → Option (List Expr)
  | [] => some []
  | c :: rest => do
    let e ← toExpr? c
    let es ← toExprs? rest
    some (e :: es)

end

end Condition

/-! ## Bits and comparisons -/

/-- An index that fits in a word is found in every group. -/
theorem Vocabulary.resolveBit?_index {v : Vocabulary} {group : String} {g : FlagGroup} {i : Nat}
    (hgroup : v.group? group = some g) (hi : i ≤ maxBit) :
    v.resolveBit? group (.index i) = some (g.path, i) := by
  simp [resolveBit?, hgroup, bitIndex?, hi]

namespace Expr

variable {v : Vocabulary} {cs : Combiners} {s : Scene}
variable {group : String} {g : FlagGroup} {allOf anyOf noneOf : List Nat}

/-- A comparison at a path is undecided if nothing is there. -/
theorem verdict_compareAt (path : String) (comparison : Comparison) (value : Json) :
    (compareAt path comparison value).verdict v cs s =
      match s.lookup path with
      | some found => Verdict.ofBool? (comparison.apply found value)
      | none => .undecided := by
  have heval : (compareAt path comparison value).eval v cs s =
      ((s.lookup path).bind fun found => comparison.apply found value).map .bool := by
    simp only [compareAt, eval, Option.or_none]
  rw [verdict_of_eval_map_bool heval]
  cases s.lookup path with
  | none => rfl
  | some found => rfl

/-- What a bit of a word that may be absent is decided to be. -/
def bitVerdict (word : Option (BitVec 64)) (i : Nat) : Verdict :=
  Verdict.ofBool? (word.map fun w => bit w i == 1)

theorem verdict_bitOf (hgroup : v.group? group = some g) {i : Nat} (hi : i ≤ maxBit) :
    (bitOf group i).verdict v cs s = bitVerdict (s.flagWord? g.path) i := by
  have htarget : bitTarget? v none (some group) (.index i) = some (g.path, i) :=
    Vocabulary.resolveBit?_index hgroup hi
  have heval : (bitOf group i).eval v cs s =
      (s.flagWord? g.path).map fun word => Json.ofNat (bit word i) := by
    simp only [bitOf, eval, htarget, Option.or_none, Option.bind_some, bitAt?]
  cases hword : s.flagWord? g.path with
  | none =>
    rw [hword] at heval
    exact verdict_of_eval_none heval
  | some word =>
    rw [hword] at heval
    rw [verdict_of_eval heval, Json.truthy_bit]
    rfl

theorem map_verdict_bitOf (hgroup : v.group? group = some g) {bits : List Nat}
    (hbits : ∀ i ∈ bits, i ≤ maxBit) :
    (bits.map (bitOf group)).map (verdict v cs s) = bits.map (bitVerdict (s.flagWord? g.path)) := by
  rw [List.map_map]
  exact List.map_congr_left fun i hi => verdict_bitOf hgroup (hbits i hi)

/-- What the bits of a word come to that have to be set, some of them, or not at all. -/
theorem verdict_bitTerms_of_word (hgroup : v.group? group = some g)
    (hbits : ∀ i ∈ allOf ++ anyOf ++ noneOf, i ≤ maxBit) {word : BitVec 64}
    (hword : s.flagWord? g.path = some word) :
    (Expr.all (bitTerms group allOf anyOf noneOf)).verdict v cs s =
      Verdict.ofBool (hasBits word allOf anyOf noneOf) := by
  rw [List.forall_mem_append, List.forall_mem_append] at hbits
  obtain ⟨⟨hall, hany⟩, hnone⟩ := hbits
  have hset : bitVerdict (some word) = fun i => Verdict.ofBool (bit word i == 1) := rfl
  -- the row has three parts, each of which is decided by the word
  have hallOf : Verdict.all ((allOf.map (bitOf group)).map (verdict v cs s)) =
      Verdict.ofBool (allOf.all fun i => bit word i == 1) := by
    rw [map_verdict_bitOf hgroup hall, hword, hset, Verdict.all_map_ofBool]
  have hanyOf : Verdict.all ((if anyOf.isEmpty then [] else
      [Expr.any (anyOf.map (bitOf group))]).map (verdict v cs s)) =
      Verdict.ofBool (anyOf.isEmpty || anyOf.any fun i => bit word i == 1) := by
    cases hempty : anyOf.isEmpty with
    | true => rfl
    | false =>
      rw [if_neg Bool.false_ne_true, List.map_singleton, verdict_any,
        map_verdict_bitOf hgroup hany, hword, hset, Verdict.any_map_ofBool, Bool.false_or,
        Verdict.all_singleton]
  have hnoneOf : Verdict.all ((noneOf.map fun i => Expr.not (bitOf group i)).map (verdict v cs s)) =
      Verdict.ofBool (!noneOf.any fun i => bit word i == 1) := by
    have hterms : (noneOf.map fun i => Expr.not (bitOf group i)).map (verdict v cs s) =
        noneOf.map fun i => Verdict.ofBool !(bit word i == 1) := by
      rw [List.map_map]
      refine List.map_congr_left fun i hi => ?_
      show (Expr.not (bitOf group i)).verdict v cs s = _
      rw [verdict_not, verdict_bitOf hgroup (hnone i hi), hword, hset, Verdict.neg_ofBool]
    rw [hterms, Verdict.all_map_ofBool, List.not_any_eq_all_not]
  rw [verdict_all, bitTerms, List.map_append, List.map_append, Verdict.all_append,
    Verdict.all_append, hallOf, hanyOf, hnoneOf, Verdict.both_ofBool, Verdict.both_ofBool]
  rfl

theorem bitTerms_ne_nil (hne : allOf ++ anyOf ++ noneOf ≠ []) : bitTerms group allOf anyOf noneOf ≠ [] := by
  simp only [bitTerms, ne_eq, List.map_eq_nil_iff, List.append_eq_nil_iff] at hne ⊢
  rintro ⟨⟨hallOf, hanyOf⟩, hnoneOf⟩
  refine hne ⟨⟨hallOf, ?_⟩, hnoneOf⟩
  split at hanyOf
  · next hempty => exact List.isEmpty_iff.mp hempty
  · cases hanyOf

/-- Without a word, no bit is decided, and so neither is anything that is asked of some. -/
theorem verdict_bitTerms_of_none (hgroup : v.group? group = some g)
    (hbits : ∀ i ∈ allOf ++ anyOf ++ noneOf, i ≤ maxBit) (hne : allOf ++ anyOf ++ noneOf ≠ [])
    (hword : s.flagWord? g.path = none) :
    (Expr.all (bitTerms group allOf anyOf noneOf)).verdict v cs s = .undecided := by
  rw [List.forall_mem_append, List.forall_mem_append] at hbits
  obtain ⟨⟨hall, hany⟩, hnone⟩ := hbits
  have hbit {i : Nat} (hi : i ≤ maxBit) : (bitOf group i).verdict v cs s = .undecided := by
    rw [verdict_bitOf hgroup hi, hword]
    rfl
  have hterms : ∀ e ∈ bitTerms group allOf anyOf noneOf, e.verdict v cs s = .undecided := by
    intro e he
    simp only [bitTerms, List.mem_append, List.mem_map] at he
    rcases he with (⟨i, hi, rfl⟩ | he) | ⟨i, hi, rfl⟩
    · exact hbit (hall i hi)
    · split at he
      · cases he
      · next hempty =>
        rw [List.mem_singleton.mp he, verdict_any, map_verdict_bitOf hgroup hany, hword,
          Verdict.any_of_undecided, if_neg]
        · simpa [List.isEmpty_iff] using hempty
        · intro w hw
          obtain ⟨i, -, rfl⟩ := List.mem_map.mp hw
          rfl
    · rw [verdict_not, hbit (hnone i hi)]
      rfl
  rw [verdict_all, Verdict.all_of_undecided, if_neg]
  · rw [List.map_eq_nil_iff]
    exact bitTerms_ne_nil hne
  · intro w hw
    obtain ⟨e, he, rfl⟩ := List.mem_map.mp hw
    exact hterms e he

/-! ## Checks of bits and comparisons -/

theorem fault?_compareAt {path : String} (hpath : Text.isBlankText path = false)
    (comparison : Comparison) (value : Json) :
    (compareAt path comparison value).fault? v = none := by
  have hpaths : (Expr.path path none).subterms = [.path path none] := by simp only [subterms]
  rw [fault?_eq_none_iff, compareAt, subterms, hpaths, List.forall_mem_cons,
    List.forall_mem_singleton]
  refine ⟨rfl, ?_⟩
  simp only [ownFault?, hpath, Bool.false_eq_true, if_false]

theorem fault?_bitOf (hgroup : v.group? group = some g) {i : Nat} (hi : i ≤ maxBit) :
    (bitOf group i).fault? v = none := by
  have htarget := Vocabulary.resolveBit?_index hgroup hi
  have hbits : (bitOf group i).subterms = [bitOf group i] := by simp only [bitOf, subterms]
  rw [fault?_eq_none_iff, hbits, List.forall_mem_singleton, bitOf]
  simp only [ownFault?, bitFault?, hgroup, htarget, Option.isNone_some, Bool.false_eq_true, if_false]

/-- What a test of flags asks of the bits of an accepted group is in order. -/
theorem fault?_bitTerms (hgroup : v.group? group = some g)
    (hbits : ∀ i ∈ allOf ++ anyOf ++ noneOf, i ≤ maxBit) :
    ∀ e ∈ bitTerms group allOf anyOf noneOf, e.fault? v = none := by
  rw [List.forall_mem_append, List.forall_mem_append] at hbits
  obtain ⟨⟨hall, hany⟩, hnone⟩ := hbits
  intro e he
  simp only [bitTerms, List.mem_append, List.mem_map] at he
  rcases he with (⟨i, hi, rfl⟩ | he) | ⟨i, hi, rfl⟩
  · exact fault?_bitOf hgroup (hall i hi)
  · split at he
    · cases he
    · next hempty =>
      rw [List.mem_singleton.mp he]
      refine fault?_any (by simpa using hempty) ?_
      intro e he
      obtain ⟨i, hi, rfl⟩ := List.mem_map.mp he
      exact fault?_bitOf hgroup (hany i hi)
  · exact fault?_not (fault?_bitOf hgroup (hnone i hi))

end Expr

/-! ## Agreement -/

/-- What a rule is judged by on a scene, with some snapshot. -/
def Scene.evidence (s : Scene) (snapshot : Snapshot) : Evidence :=
  ⟨s.frame, s.externals, snapshot⟩

/-- A condition has an expression that is in order and comes to the same on every scene, whatever
the combiners and the snapshot are. -/
structure Condition.Agrees (v : Vocabulary) (cond : Condition) (e : Expr) : Prop where
  toExpr : cond.toExpr? = some e
  fault : e.fault? v = none
  judge : ∀ cs (scene : Scene) snapshot,
    Condition.judge (scene.evidence snapshot) cond = e.verdict v cs scene

theorem verdict_any_compareAt {v : Vocabulary} {cs : Combiners} {scene : Scene} {path : String}
    {values : List Json} (hne : values ≠ []) :
    (Expr.any (values.map (.compareAt path .eq))).verdict v cs scene =
      match scene.lookup path with
      | some found => Verdict.ofBool (found.memberOf values)
      | none => .undecided := by
  have hterms : (values.map (Expr.compareAt path .eq)).map (Expr.verdict v cs scene) =
      values.map fun value =>
        match scene.lookup path with
        | some found => Verdict.ofBool (found.looseEq value)
        | none => .undecided := by
    rw [List.map_map]
    exact List.map_congr_left fun value _ => Expr.verdict_compareAt path .eq value
  rw [Expr.verdict_any, hterms]
  cases scene.lookup path with
  | none =>
    rw [Verdict.any_of_undecided, if_neg (by simpa using hne)]
    intro w hw
    obtain ⟨value, -, rfl⟩ := List.mem_map.mp hw
    rfl
  | some found =>
    -- membership compares the other way around
    simp only [Verdict.any_map_ofBool, Json.memberOf, Json.looseEq_comm found]

/-- The verdict of a leaf that looks at no signal is that of its expression. -/
theorem Leaf.Loaded.agrees {c : Catalog} (hc : c.Accepted) {l : Leaf} (h : l.Loaded c)
    (hraw : l.operand.isRaw = true) : ∃ e, Condition.Agrees c.vocabulary (.leaf l) e := by
  cases h with
  | signal => cases hraw
  | @field path test hpath hcomparing htest =>
    cases test with
    | compare comparison value =>
      refine ⟨_, rfl, Expr.fault?_compareAt hpath comparison value, fun cs scene snapshot => ?_⟩
      rw [Expr.verdict_compareAt]
      rfl
    | oneOf values =>
      -- of no values at all the leaf could be undecided, but not the disjunction
      have hne : values ≠ [] := by
        rintro rfl
        cases htest
      have hfault : ∀ e ∈ values.map (Expr.compareAt path .eq), e.fault? c.vocabulary = none := by
        intro e he
        obtain ⟨value, -, rfl⟩ := List.mem_map.mp he
        exact Expr.fault?_compareAt hpath .eq value
      refine ⟨_, rfl, Expr.fault?_any (by simpa using hne) hfault, fun cs scene snapshot => ?_⟩
      rw [verdict_any_compareAt hne]
      rfl
    | bits allOf anyOf noneOf => exact absurd rfl (hcomparing allOf anyOf noneOf)
  | @flags group g allOf anyOf noneOf hgroup hbits hne =>
    -- expressions give no value to a bit beyond the word, but an accepted group has none
    have hbound : ∀ i ∈ allOf ++ anyOf ++ noneOf, i ≤ maxBit := by
      intro i hi
      obtain ⟨name, hname⟩ := hbits i hi
      exact hc.bit_le_maxBit hgroup hname
    refine ⟨_, rfl, Expr.fault?_all (Expr.bitTerms_ne_nil hne)
      (Expr.fault?_bitTerms hgroup hbound), fun cs scene snapshot => ?_⟩
    have hjudge : Condition.judge (scene.evidence snapshot)
        (.leaf ⟨.flags group g.path, .bits allOf anyOf noneOf⟩) =
        Verdict.ofBool? ((scene.flagWord? g.path).map fun word =>
          hasBits word allOf anyOf noneOf) := by
      show Leaf.judge _ _ = _
      rw [Leaf.judge, Scene.flagWord?]
      show (match scene.lookup g.path with | some found => _ | none => _) = _
      cases scene.lookup g.path with
      | none => rfl
      | some found => rfl
    rw [hjudge]
    cases hword : scene.flagWord? g.path with
    | none => exact (Expr.verdict_bitTerms_of_none hgroup hbound hne hword).symm
    | some word => exact (Expr.verdict_bitTerms_of_word hgroup hbound hword).symm

namespace Condition

variable {v : Vocabulary}

theorem toExprs?_of_agrees {members : List Condition} {es : List Expr}
    (h : List.Forall₂ (Agrees v) members es) : toExprs? members = some es := by
  induction h with
  | nil => simp only [toExprs?]
  | cons hm _ ih =>
    simp only [toExprs?, hm.toExpr, ih]
    rfl

theorem judgeEach_of_agrees {members : List Condition} {es : List Expr}
    (h : List.Forall₂ (Agrees v) members es) (cs : Combiners) (scene : Scene)
    (snapshot : Snapshot) :
    judgeEach (scene.evidence snapshot) members = es.map (Expr.verdict v cs scene) := by
  induction h with
  | nil => simp only [judgeEach, List.map_nil]
  | cons hm _ ih => rw [judgeEach, List.map_cons, hm.judge cs, ih]

theorem exists_forall₂_agrees {members : List Condition} (h : ∀ m ∈ members, ∃ e, Agrees v m e) :
    ∃ es, List.Forall₂ (Agrees v) members es := by
  induction members with
  | nil => exact ⟨[], .nil⟩
  | cons m rest ih =>
    obtain ⟨e, he⟩ := h m List.mem_cons_self
    obtain ⟨es, hes⟩ := ih fun m hm => h m (List.mem_cons_of_mem _ hm)
    exact ⟨e :: es, .cons he hes⟩

theorem fault?_of_agrees {members : List Condition} {es : List Expr}
    (h : List.Forall₂ (Agrees v) members es) : ∀ e ∈ es, e.fault? v = none := by
  induction h with
  | nil => exact fun e he => absurd he List.not_mem_nil
  | cons hm _ ih => exact List.forall_mem_cons.mpr ⟨hm.fault, ih⟩

theorem ne_nil_of_agrees {members : List Condition} {es : List Expr}
    (h : List.Forall₂ (Agrees v) members es) (hne : members ≠ []) : es ≠ [] := by
  rintro rfl
  cases h
  exact hne rfl

/-- The verdict of a condition that looks at no signal is that of its expression. -/
theorem Loaded.agrees {c : Catalog} (hc : c.Accepted) {cond : Condition} (h : cond.Loaded c)
    (hraw : ∀ l ∈ cond.leaves, l.operand.isRaw = true) : ∃ e, Agrees c.vocabulary cond e := by
  induction h with
  | leaf hl => exact hl.agrees hc (hraw _ (List.mem_singleton_self _))
  | all hne _ ih =>
    obtain ⟨es, hes⟩ := exists_forall₂_agrees fun m hm =>
      ih m hm fun l hl => hraw l (mem_leavesOf hm hl)
    refine ⟨.all es, ?_, Expr.fault?_all (ne_nil_of_agrees hes hne) (fault?_of_agrees hes),
      fun cs scene snapshot => ?_⟩
    · rw [toExpr?, toExprs?_of_agrees hes]
      rfl
    · rw [judge, judgeEach_of_agrees hes cs, Expr.verdict_all]
  | any hne _ ih =>
    obtain ⟨es, hes⟩ := exists_forall₂_agrees fun m hm =>
      ih m hm fun l hl => hraw l (mem_leavesOf hm hl)
    refine ⟨.any es, ?_, Expr.fault?_any (ne_nil_of_agrees hes hne) (fault?_of_agrees hes),
      fun cs scene snapshot => ?_⟩
    · rw [toExpr?, toExprs?_of_agrees hes]
      rfl
    · rw [judge, judgeEach_of_agrees hes cs, Expr.verdict_any]

end Condition

/-! ## Conditions of loaded rules -/

/-- **Rules and expressions agree on raw data.** A condition of a rule that was loaded against an
accepted catalog, at any depth, has an expression if it looks at no signal, one without a fault. On
every frame, with all external documents, recencies and times, and whatever the combiners and the
snapshot are, the condition holds, fails or is undecided exactly if the expression has a true value,
a false one or none. -/
theorem Rule.judge_iff_eval_toExpr {c : Catalog} (hc : c.Accepted) {text : String}
    {rules : List Rule} (hrules : Rule.listOfText c text = .ok rules) {r : Rule} (hr : r ∈ rules)
    {cond : Condition} (hcond : r.Has cond) (hraw : ∀ l ∈ cond.leaves, l.operand.isRaw = true) :
    ∃ e, cond.toExpr? = some e ∧ e.fault? c.vocabulary = none ∧
      ∀ (cs : Combiners) (f : Frame) (x : Externals) (recency : Recency) (now : Timestamp)
        (snapshot : Snapshot),
        let verdict := Condition.judge ⟨f, x, snapshot⟩ cond
        let value? := e.eval c.vocabulary cs ⟨f, x, recency, now⟩
        (verdict = .holds ↔ ∃ value, value? = some value ∧ Json.truthy (some value) = true) ∧
        (verdict = .fails ↔ ∃ value, value? = some value ∧ Json.truthy (some value) = false) ∧
        (verdict = .undecided ↔ value? = none) := by
  obtain ⟨e, hagrees⟩ := (hcond.loaded hrules hr).agrees hc hraw
  refine ⟨e, hagrees.toExpr, hagrees.fault, fun cs f x recency now snapshot => ?_⟩
  intro verdict value?
  have hverdict : verdict = e.verdict c.vocabulary cs ⟨f, x, recency, now⟩ :=
    hagrees.judge cs ⟨f, x, recency, now⟩ snapshot
  rw [hverdict]
  exact Expr.verdict_iff e

/-- A catalog without signals and with one group of flags. -/
def hangar : Catalog where
  version := 1
  vocabulary := ⟨[("ship", ⟨"dashboard.Flags", [("down", 1), ("hot", 6)]⟩)], []⟩
  signals := []

/-- One rule with a nested group: a test of flags, and beside it one of membership. -/
def hangarRules : String :=
  "rules:\n- title: A\n  when:\n    all:\n    - any:\n      - flags: ship\n" ++
    "        all_of: [down]\n        none_of: [hot]\n      - field: Zone\n        in: [a]\n" ++
    "  then:\n  - type: log\n    message: m\n"

/-- A frame with the flags of a landed ship, and one with nothing but its fuel. -/
def Frame.landed : Frame := ⟨.dashboard, none, ⟨0, 0⟩, .object [("Flags", .ofNat 2)]⟩

def Frame.fuelled : Frame := ⟨.dashboard, none, ⟨0, 0⟩, .object [("Fuel", .ofNat 5)]⟩

theorem Rule.judge_iff_eval_toExpr_hangar :
    hangar.Accepted ∧ ∃ rules, Rule.listOfText hangar hangarRules = .ok rules ∧
      ∃ r ∈ rules, ∃ members, r.Has (.all members) ∧
        (∀ l ∈ (Condition.all members).leaves, l.operand.isRaw = true) ∧
        Condition.judge ⟨.landed, .absent, []⟩ (.all members) = .holds ∧
        Condition.judge ⟨.fuelled, .absent, []⟩ (.all members) = .undecided ∧
        ∃ e, (Condition.all members).toExpr? = some e ∧ e.fault? hangar.vocabulary = none ∧
          (∃ value, e.eval hangar.vocabulary .absent ⟨.landed, .absent, .empty, ⟨0, 0⟩⟩ = some value ∧
            Json.truthy (some value) = true) ∧
          e.eval hangar.vocabulary .absent ⟨.fuelled, .absent, .empty, ⟨0, 0⟩⟩ = none := by
  have hfault : hangar.fault?.isNone = true := by decide +kernel
  have haccepted : hangar.Accepted := Option.isNone_iff_eq_none.mp hfault
  have hparse : (Rule.listOfText hangar hangarRules).toOption.any (fun rules => rules.any fun r =>
      r.all.any fun members => (Condition.all members).leaves.all (·.operand.isRaw) &&
        decide (Condition.judge ⟨.landed, .absent, []⟩ (.all members) = .holds) &&
        decide (Condition.judge ⟨.fuelled, .absent, []⟩ (.all members) = .undecided)) = true := by
    decide +kernel
  obtain ⟨rules, hrules, htests⟩ := exists_of_any_toOption hparse
  obtain ⟨r, hr, hgroup⟩ := List.any_eq_true.mp htests
  obtain ⟨members, hmembers, hleaves⟩ := (Option.any_eq_true _ _).mp hgroup
  simp only [Bool.and_eq_true, List.all_eq_true, decide_eq_true_eq] at hleaves
  obtain ⟨⟨hraw, hholds⟩, hundecided⟩ := hleaves
  obtain ⟨e, hexpr, hfaults, hiff⟩ :=
    Rule.judge_iff_eval_toExpr haccepted hrules hr (.all hmembers) hraw
  refine ⟨haccepted, rules, hrules, r, hr, members, .all hmembers, hraw, hholds, hundecided, e,
    hexpr, hfaults, ?_, ?_⟩
  · exact (hiff .absent .landed .absent .empty ⟨0, 0⟩ []).1.mp hholds
  · exact (hiff .absent .fuelled .absent .empty ⟨0, 0⟩ []).2.2.mp hundecided

end Telltale
