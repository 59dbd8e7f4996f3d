import Mathlib.Data.List.Find
import Telltale.Proofs.Expr.Kinds
import Telltale.Proofs.Rule.Evidence
import Telltale.Proofs.Rule.WellFormed
import Telltale.Proofs.Snapshot.ClosedWorld

/-!
# Signals, rules and the kinds of numbers

Whether a producer writes `6` or `6.0` makes no difference to signals and rules, within bounds: keys
and words of flags have to be kept, and nothing may compare for equality with an array or object that
has numbers inside.

* `Signal.conform_alike` — a signal takes values that differ in kinds alone alike.
* `Deriver.derive_alike` — the snapshots of two scenes that differ in kinds alone are alike.
* `Rule.judge_alike` — and a rule has one verdict on them.
* `kinds_within_bounds` — what does not depend on the kinds of numbers, and what does.
* `kinds_matter` — negative numbers, great ones and those inside arrays are read apart.
-/

namespace Telltale

open Json (Alike Alike?)
open Number (IsRespelling KeepsKeys KeepsWords SameNumber Interchangeable)

variable {R : Number → Number → Prop}

/-! ## Signals -/

/-- Two values come to the same conformance, and what is left of them is alike. -/
inductive Conformance.Alike (R : Number → Number → Prop) : Conformance → Conformance → Prop where
  | accepted {v w : Json} (h : Json.Alike R v w) : Alike R (.accepted v) (.accepted w)
  | undeclared {v w : Json} (h : Json.Alike R v w) : Alike R (.undeclared v) (.undeclared w)
  | wrongType {v w : Json} (h : Json.Alike R v w) : Alike R (.wrongType v) (.wrongType w)

namespace Signal

variable {s : Signal} {v w : Json}

/-- The declared values of an enumerated signal are numbers or hold none. -/
def DeclaresShallow (s : Signal) : Prop := s.type = .enum → ∀ d ∈ s.values, d.value.Shallow

theorem declared?_alike (hR : IsRespelling R) (hs : ∀ d ∈ s.values, d.value.Shallow)
    (h : Alike R v w) : s.declared? v = s.declared? w := by
  apply List.find?_congr
  intro d hd
  rw [Json.looseEq_comm _ v, Json.looseEq_comm _ w]
  exact (h.same hR).looseEq_left (hs d hd)

theorem conformBool_alike (hR : IsRespelling R) (h : Alike R v w) :
    (conformBool v).Alike R (conformBool w) := by
  cases h with
  | bool b => exact .accepted (.bool b)
  | @number m n hmn =>
    have hsame (p : Number) : m.sameValue p = n.sameValue p := by
      rw [Number.sameValue, Number.sameValue, Double.sameValue, Double.sameValue,
        (hR.same hmn).units_eq]
    unfold conformBool
    simp only [hsame]
    split
    · exact .accepted (.bool false)
    · split
      · exact .accepted (.bool true)
      · exact .wrongType (.number hmn)
  | null => exact .wrongType .null
  | string t => exact .wrongType (.string t)
  | array h => exact .wrongType (.array h)
  | object h => exact .wrongType (.object h)

/-- A signal takes values that differ in kinds alone alike. -/
theorem conform_alike (hR : IsRespelling R) (hs : s.DeclaresShallow) (h : Alike R v w) :
    (s.conform v).Alike R (s.conform w) := by
  have hite {b b' : Bool} (hb : b = b') :
      (if b then Conformance.accepted v else .wrongType v).Alike R
        (if b' then .accepted w else .wrongType w) := by
    subst hb
    split
    · exact .accepted h
    · exact .wrongType h
  unfold conform
  cases ht : s.type with
  | enum =>
    simp only [declared?_alike hR (hs ht) h]
    cases s.declared? w with
    | none => exact .undeclared h
    | some d => exact .accepted (.refl hR.refl d.value)
  | bool => exact conformBool_alike hR h
  | number => exact hite h.isNumber_eq
  | string =>
    apply hite
    cases h <;> rfl
  | array =>
    apply hite
    cases h <;> rfl

theorem accept_alike (hR : IsRespelling R) (hs : s.DeclaresShallow) (h : Alike R v w) :
    Alike? R (s.accept v).value? (s.accept w).value? := by
  have hconform := conform_alike hR hs h
  unfold accept
  generalize s.conform v = c at hconform
  generalize s.conform w = c' at hconform
  cases hconform with
  | accepted h => exact .some h
  | undeclared h => exact .none
  | wrongType h => exact .none

end Signal

/-! ## Snapshots -/

/-- Two entries are of one signal, both or neither of them stand in, and their values are alike. -/
structure Entry.Alike (R : Number → Number → Prop) (e e' : Entry) : Prop where
  id : e.id = e'.id
  isFallback : e.isFallback = e'.isFallback
  value : Json.Alike R e.value e'.value

/-- The signals of a catalog do nothing that may depend on the kinds of numbers. -/
structure Catalog.OverlooksKinds (R : Number → Number → Prop) (c : Catalog) : Prop where
  exprs : ∀ s ∈ c.signals, Expr.OverlookKinds R s.expr.subterms
  declared : ∀ s ∈ c.signals, s.DeclaresShallow

section Derivation

variable {d : Deriver} {scene scene' : Scene}

theorem Deriver.value?_read_alike (hR : IsRespelling R) (hcs : d.combiners.OverlookKinds R)
    (hc : d.catalog.OverlooksKinds R) (hscene : scene.Alike R scene') {s : Signal}
    (hs : s ∈ d.catalog.signals) :
    Alike? R (d.read scene s).value? (d.read scene' s).value? := by
  have heval : Alike? R (s.expr.eval d.catalog.vocabulary d.combiners scene)
      (s.expr.eval d.catalog.vocabulary d.combiners scene') :=
    Expr.eval_alike hR hcs hscene s.expr (hc.exprs s hs)
  unfold read Signal.read
  generalize s.expr.eval d.catalog.vocabulary d.combiners scene = v at heval
  generalize s.expr.eval d.catalog.vocabulary d.combiners scene' = w at heval
  cases heval with
  | none => exact .none
  | some h => exact Signal.accept_alike hR (hc.declared s hs) h

theorem Signal.entry_alike (hR : IsRespelling R) {s : Signal} {r r' : Reading}
    (h : Alike? R r.value? r'.value?) : (s.entry r).Alike R (s.entry r') := by
  unfold entry
  generalize r.value? = v at h
  generalize r'.value? = w at h
  cases h with
  | none => exact ⟨rfl, rfl, .refl hR.refl _⟩
  | some h => exact ⟨rfl, rfl, h⟩

/-- The snapshots of two scenes that differ in kinds alone are alike. -/
theorem Deriver.derive_alike (hR : IsRespelling R) (hcs : d.combiners.OverlookKinds R)
    (hc : d.catalog.OverlooksKinds R) (hscene : scene.Alike R scene') :
    List.Forall₂ (Entry.Alike R) (d.derive scene).snapshot (d.derive scene').snapshot := by
  rw [snapshot_derive, snapshot_derive, List.forall₂_map_left_iff, List.forall₂_map_right_iff,
    List.forall₂_same]
  intro s hs
  exact Signal.entry_alike hR (value?_read_alike hR hcs hc hscene hs)

end Derivation

/-! ## Rules -/

/-- The tests of a rule do not depend on the kinds of numbers: what they compare with for equality
are numbers or values that hold none, and they read words of flags only where respelled numbers keep
these. -/
structure Rule.OverlooksKinds (R : Number → Number → Prop) (r : Rule) : Prop where
  literals : ∀ l ∈ r.leaves, ∀ value, l.test.Mentions value → value.Shallow
  words : ∀ l ∈ r.leaves, ∀ allOf anyOf noneOf, l.test = .bits allOf anyOf noneOf → KeepsWords R

theorem Snapshot.derived?_alike {s s' : Snapshot} (h : List.Forall₂ (Entry.Alike R) s s')
    (id : String) : Alike? R (s.derived? id) (s'.derived? id) := by
  unfold derived? entry?
  induction h with
  | nil => exact .none
  | @cons e e' _ _ he _ ih =>
    rw [List.find?_cons, List.find?_cons, he.id]
    split
    · rw [Option.filter_some, Option.filter_some, he.isFallback]
      split
      · exact .some he.value
      · exact .none
    · exact ih

/-- A test takes values that differ in kinds alone alike. -/
theorem Test.judge_alike (hR : IsRespelling R) {t : Test}
    (ht : ∀ value, t.Mentions value → value.Shallow)
    (hwords : ∀ allOf anyOf noneOf, t = .bits allOf anyOf noneOf → KeepsWords R) {a b : Json}
    (h : Alike R a b) : t.judge a = t.judge b := by
  cases t with
  | compare comparison value =>
    have hvalue : comparison.isOrdering = false → value.Shallow := by
      intro hequality
      cases comparison with
      | eq => exact ht value .eq
      | ne => exact ht value .ne
      | gt | gte | lt | lte => cases hequality
    simp only [judge, Comparison.apply_left (h.same hR) comparison hvalue]
  | oneOf values =>
    have hvalues : ∀ value ∈ values, value.Shallow := fun value hvalue => ht value (.oneOf hvalue)
    simp only [judge, (h.same hR).memberOf_eq hvalues]
  | bits allOf anyOf noneOf =>
    simp only [judge, h.flagWord?_eq (hwords allOf anyOf noneOf rfl)]

/-- Two evidences differ in the kinds of some numbers alone. -/
structure Evidence.Alike (R : Number → Number → Prop) (e e' : Evidence) : Prop where
  source : e.frame.source = e'.frame.source
  eventName? : e.frame.eventName? = e'.frame.eventName?
  lookup : ∀ path, Alike? R (lookup e.frame e.externals path) (lookup e'.frame e'.externals path)
  snapshot : List.Forall₂ (Entry.Alike R) e.snapshot e'.snapshot

namespace Rule

variable {e e' : Evidence} {r : Rule}

theorem judge_leaf_alike (hR : IsRespelling R) (he : e.Alike R e') (hr : r.OverlooksKinds R) :
    ∀ l ∈ r.leaves, l.judge e = l.judge e' := by
  intro l hl
  have hvalue : Alike? R (e.value? l.operand) (e'.value? l.operand) := by
    cases l.operand with
    | signal id => exact Snapshot.derived?_alike he.snapshot id
    | field path => exact he.lookup path
    | flags group path => exact he.lookup path
  unfold Leaf.judge
  generalize e.value? l.operand = v at hvalue
  generalize e'.value? l.operand = w at hvalue
  cases hvalue with
  | none => rfl
  | some h => exact Test.judge_alike hR (hr.literals l hl) (hr.words l hl) h

/-- A rule has one verdict on evidences that differ in kinds alone. -/
theorem judge_alike (hR : IsRespelling R) (he : e.Alike R e') (hr : r.OverlooksKinds R) :
    r.judge e = r.judge e' := by
  have hleaves := judge_leaf_alike hR he hr
  have hcondition : r.judgeCondition e = r.judgeCondition e' :=
    (judgeCondition_stays fun l hl => hleaves l hl ▸ .refl _).antisymm
      (judgeCondition_stays fun l hl => hleaves l hl ▸ .refl _)
  unfold judge
  rw [he.source, he.eventName?, hcondition]

end Rule

/-! ## What depends on the kinds of numbers -/

/-- What is the same of two values that differ in kinds alone. Their keys and words of flags are those
of numbers; equality sees the kinds of numbers inside them, and comparisons do just then. -/
structure Json.ReadWithinBounds (a b : Json) : Prop where
  truthy : Json.truthy (some a) = Json.truthy (some b)
  key_and_word : a.isNumber = false → a.key? = b.key? ∧ a.flagWord? = b.flagWord?
  looseEq_iff : a.looseEq b = true ↔ a.isNumber = true ∨ Json.Alike Json.SameKind a b
  apply_iff : (∀ (op : Comparison) c, op.apply a c = op.apply b c ∧ op.apply c a = op.apply c b) ↔
    a.looseEq b = true
  apply_shallow : ∀ (op : Comparison) (c : Json), (op.isOrdering = false → c.Shallow) →
    op.apply a c = op.apply b c ∧ op.apply c a = op.apply c b

/-- What is the same of an integer and its double. -/
structure Number.ReadWithinBounds (m n : Number) (k : Int) : Prop where
  value : m.sameValue n = true
  key_iff : m.key = n.key ↔ Number.IsShortest k
  word_iff : m.flagWord? = n.flagWord? ↔ 0 ≤ k
  interchangeable_iff : Number.Interchangeable m n ↔ 0 ≤ k ∧ Number.IsShortest k
  small : k.natAbs < 9007199254740992 → Number.IsShortest k

/-- What is the same of two scenes: the snapshots but for the kinds of numbers, and all verdicts. -/
structure Deriver.SeesAlike (R : Number → Number → Prop) (d : Deriver) (scene scene' : Scene) :
    Prop where
  snapshot : List.Forall₂ (Entry.Alike R) (d.derive scene).snapshot (d.derive scene').snapshot
  verdicts : ∀ r : Rule, r.OverlooksKinds R →
    r.judge ⟨scene.frame, scene.externals, (d.derive scene).snapshot⟩ =
      r.judge ⟨scene'.frame, scene'.externals, (d.derive scene').snapshot⟩

theorem Json.readWithinBounds {a b : Json} (h : Alike SameNumber a b) : ReadWithinBounds a b where
  truthy := h.truthy_eq SameNumber.units_eq
  key_and_word hnumber := by
    cases h with
    | number h => cases hnumber
    | null | bool | string | array | object => exact ⟨rfl, rfl⟩
  looseEq_iff := looseEq_iff_of_alike h
  apply_iff := Comparison.apply_congr_iff h
  apply_shallow op c hc := ⟨Comparison.apply_left h op hc, Comparison.apply_right h op hc⟩

theorem Number.readWithinBounds {k : Int} (hk : InRange k) {x : Double}
    (hx : x.units = k * Double.unitsPerOne) : ReadWithinBounds (.integer k hk) (.double x) k where
  value := SameNumber.sameValue (.inr ⟨k, rfl, hx⟩)
  key_iff := key_eq_iff hk hx
  word_iff := flagWord?_eq_iff hk hx
  interchangeable_iff := Number.interchangeable_iff hk hx
  small := isShortest_of_small

/-- **What depends on the kinds of numbers, and what does not.** Let two values differ in nothing but
the kinds of numbers. They have one truth, and any comparison takes them alike unless it is for
equality with a value that has numbers inside; they are loosely equal, and taken alike by all
comparisons, exactly if they are numbers or no kind inside them differs. An integer and its double
have one key exactly if the integer is the shortest decimal of the double, as it is up to 53 binary
digits, and one word of flags exactly if they are not negative.

So let the documents of two scenes differ in the kinds of numbers, and let those that do keep their
keys and words where a catalog or a rule asks for any. If nothing compares for equality with a value
that has numbers inside, and combiners overlook kinds, then the snapshots differ in kinds alone and
the rule has one verdict. -/
theorem kinds_within_bounds {a b : Json} (hab : Alike SameNumber a b) {k : Int}
    (hk : Number.InRange k) {x : Double} (hx : x.units = k * Double.unitsPerOne)
    (hR : IsRespelling R) {d : Deriver} (hcs : d.combiners.OverlookKinds R)
    (hc : d.catalog.OverlooksKinds R) {scene scene' : Scene} (hscene : scene.Alike R scene') :
    a.ReadWithinBounds b ∧ Number.ReadWithinBounds (.integer k hk) (.double x) k ∧
      d.SeesAlike R scene scene' := by
  have hsnapshot := Deriver.derive_alike hR hcs hc hscene
  have hevidence : Evidence.Alike R
      ⟨scene.frame, scene.externals, (d.derive scene).snapshot⟩
      ⟨scene'.frame, scene'.externals, (d.derive scene').snapshot⟩ :=
    ⟨hscene.source, hscene.eventName?, hscene.lookup, hsnapshot⟩
  refine ⟨Json.readWithinBounds hab, Number.readWithinBounds hk hx, hsnapshot, ?_⟩
  intro r hr
  exact Rule.judge_alike hR hevidence hr

/-- A catalog that reads one number by itself, as a key and against a bound. -/
def depot : Catalog where
  version := 1
  vocabulary := ⟨[], []⟩
  signals := [{
    id := "cargo"
    type := .number
    values := []
    default := none
    description := none
    expr := .path "Cargo" none }, {
    id := "load"
    type := .enum
    values := [⟨.string "empty", none⟩, ⟨.string "half", none⟩]
    default := none
    description := none
    expr := .map (.path "Cargo" none) [("6", .string "half")] none }, {
    id := "carrying"
    type := .bool
    values := []
    default := none
    description := none
    expr := .compare (.path "Cargo" none) .ne (.number .zero) }]

theorem depot_overlooksKinds : depot.OverlooksKinds Interchangeable := by
  have hliteral (value : Json) (h : value = .number .zero) : value.Shallow := by
    rw [h]
    exact .inl rfl
  constructor
  · intro s hs
    constructor
    · intro input op value hmem _
      apply hliteral
      simp only [depot, List.mem_cons, List.not_mem_nil, or_false] at hs
      rcases hs with rfl | rfl | rfl <;> simp_all [Expr.subterms]
    · exact fun _ _ _ _ => Interchangeable.key
    · exact fun _ _ _ _ _ => Interchangeable.flagWord
  · intro s hs _ d hd
    simp only [depot, List.mem_cons, List.not_mem_nil, or_false] at hs
    rcases hs with rfl | rfl | rfl
    · cases hd
    · simp only [List.mem_cons, List.not_mem_nil, or_false] at hd
      rcases hd with rfl | rfl <;> exact .inr rfl
    · cases hd

/-- `6` and `6.0`, in an array and as the cargo of a ship. -/
theorem kinds_within_bounds_depot :
    ∃ hk : Number.InRange 6,
      let six : Number := .integer 6 hk
      let sixDouble : Number := .double (.ofInt 6)
      let d : Deriver := ⟨depot, .standard⟩
      let scene := Scene.polled [("Cargo", .number six)]
      let scene' := Scene.polled [("Cargo", .number sixDouble)]
      Alike SameNumber (.array [.number six]) (.array [.number sixDouble]) ∧
      (Double.ofInt 6).units = 6 * Double.unitsPerOne ∧
      scene.Alike Interchangeable scene' ∧
      (Json.array [.number six]).ReadWithinBounds (.array [.number sixDouble]) ∧
      six.ReadWithinBounds sixDouble 6 ∧ d.SeesAlike Interchangeable scene scene' := by
  have hk : Number.InRange 6 := by decide
  have hx : (Double.ofInt 6).units = 6 * Double.unitsPerOne :=
    Double.units_ofInt_of_small (by decide)
  have hsame : SameNumber (.integer 6 hk) (.double (.ofInt 6)) := .inr ⟨6, rfl, hx⟩
  have hshortest : Number.IsShortest 6 := Number.isShortest_of_small (by decide)
  have hinterchangeable := (Number.interchangeable_iff hk hx).mpr ⟨by decide, hshortest⟩
  have hab : Alike SameNumber (.array [.number (.integer 6 hk)])
      (.array [.number (.double (.ofInt 6))]) := .array (.cons (.number hsame) .nil)
  have hscene : (Scene.polled [("Cargo", .number (.integer 6 hk))]).Alike Interchangeable
      (Scene.polled [("Cargo", .number (.double (.ofInt 6)))]) :=
    ⟨rfl, rfl, .object (.cons "Cargo" (.number hinterchangeable) .nil), .none, .none, rfl, rfl⟩
  have hR : IsRespelling Interchangeable := Number.isRespelling_interchangeable
  exact ⟨hk, hab, hx, hscene, kinds_within_bounds hab hk hx hR
    (d := ⟨depot, .standard⟩) (Combiners.overlookKinds_standard hR) depot_overlooksKinds hscene⟩

/-- An array with a number inside is not equal to itself with the number in the other kind, a negative
number is no word of flags as a double, and a great one is another key. -/
theorem kinds_matter :
    ∃ (hone : Number.InRange 1) (hneg : Number.InRange (-1))
      (hgreat : Number.InRange 1152921504606846976),
      let ones : Json := .array [.number (.integer 1 hone)]
      let onesDouble : Json := .array [.number (.double (.ofInt 1))]
      let minusOne : Json := .number (.integer (-1) hneg)
      let minusOneDouble : Json := .number (.double (.ofInt (-1)))
      let great : Json := .number (.integer 1152921504606846976 hgreat)
      let greatDouble : Json := .number (.double (.ofInt 1152921504606846976))
      (Alike SameNumber ones onesDouble ∧ ones.looseEq onesDouble = false ∧
        Comparison.eq.apply ones ones ≠ Comparison.eq.apply onesDouble ones) ∧
      (Alike SameNumber minusOne minusOneDouble ∧
        minusOne.flagWord? = some (BitVec.allOnes 64) ∧ minusOneDouble.flagWord? = none) ∧
      Alike SameNumber great greatDouble ∧
        great.key? = some "1152921504606846976" ∧ greatDouble.key? = some "1152921504606847000" := by
  have hsame {k : Int} (hk : Number.InRange k)
      (hx : (Double.ofInt k).units = k * Double.unitsPerOne) :
      Alike SameNumber (.number (.integer k hk)) (.number (.double (.ofInt k))) :=
    .number (.inr ⟨k, rfl, hx⟩)
  refine ⟨by decide, by decide, by decide, ⟨.array (.cons (hsame _ ?_) .nil), rfl, ?_⟩,
    ⟨hsame _ ?_, ?_, ?_⟩, hsame _ ?_, ?_, ?_⟩
  all_goals decide +kernel

end Telltale
