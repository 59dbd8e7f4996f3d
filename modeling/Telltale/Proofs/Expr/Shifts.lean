import Telltale.Proofs.Catalog.Accepted
import Telltale.Snapshot

/-!
# Derivation without overflow

A bit of a word is read by a shift, and a shift by as many places as a word has bits is an error.
Nothing in the evaluation of expressions looks out for that, nor for anything else that the checks of
a catalog have ruled out before.

* `shiftBit` — reading a bit by a shift, which may fail.
* `Expr.Inside` — an expression stands in another one, at any depth.
* `Expr.Resolves` — whatever an expression refers to is there, and its bits are bits of a word. So it
  is with everything inside the signals of an accepted catalog (`Catalog.Accepted.resolves`).
* `Expr.evalChecked`, `Deriver.deriveChecked` — evaluation and derivation with shifts that may fail.
* `Expr.evalChecked_eq_ok`, `Deriver.deriveChecked_eq_ok` — they do not fail, and come to the same.
-/

namespace Telltale

/-! ## Shifts -/

/-- A shift of a word by as many places as it has bits, or more. -/
structure Overflow where
  places : Nat

/-- Flag number `i` of a word, by a shift. -/
def shiftBit (word : BitVec 64) (i : Nat) : Except Overflow Nat :=
  if i < 64 then .ok ((word >>> i) &&& 1#64).toNat else .error ⟨i⟩

theorem shiftBit_eq_ok {i : Nat} (h : i ≤ 63) (word : BitVec 64) :
    shiftBit word i = .ok (bit word i) := by
  have hlt : i < 64 := by omega
  unfold shiftBit bit
  rw [if_pos hlt, BitVec.and_one_eq_setWidth_ofBool_getLsbD, BitVec.getLsbD_ushiftRight,
    Nat.add_zero]
  cases word.getLsbD i <;> rfl

/-- Where a step succeeds on every member of a list, so does the row of all steps. -/
theorem mapM_eq_ok {f : α → Except ε β} {g : α → β} {l : List α} (h : ∀ a ∈ l, f a = .ok (g a)) :
    l.mapM f = .ok (l.map g) := by
  induction l with
  | nil => rfl
  | cons a rest ih =>
    obtain ⟨ha, hrest⟩ := List.forall_mem_cons.mp h
    rw [List.mapM_cons, ha, ih hrest]
    rfl

/-! ## What expressions refer to -/

namespace Expr

/-- An expression stands in another one, at any depth. -/
inductive Inside (t : Expr) : Expr → Prop where
  | self : Inside t t
  | map {input : Expr} {table : List (String × Json)} {default : Option Json} (h : Inside t input) :
    Inside t (.map input table default)
  | compare {input : Expr} {comparison : Comparison} {value : Json} (h : Inside t input) :
    Inside t (.compare input comparison value)
  | not {term : Expr} (h : Inside t term) : Inside t (.not term)
  | firstMatch {cases : List (Expr × Json)} {default : Option Json} {condition : Expr}
    {value : Json} (hmem : (condition, value) ∈ cases) (h : Inside t condition) :
    Inside t (.firstMatch cases default)
  | all {terms : List Expr} {term : Expr} (hmem : term ∈ terms) (h : Inside t term) :
    Inside t (.all terms)
  | any {terms : List Expr} {term : Expr} (hmem : term ∈ terms) (h : Inside t term) :
    Inside t (.any terms)
  | combine {combiner : String} {inputs : List Expr} {input : Expr} (hmem : input ∈ inputs)
    (h : Inside t input) : Inside t (.combine combiner inputs)

/-- The list of subterms leaves no place inside an expression out. -/
theorem Inside.mem_subterms {t e : Expr} (h : Inside t e) : t ∈ e.subterms := by
  induction h with
  | self => exact self_mem_subterms t
  | map _ ih | compare _ ih | not _ ih =>
    rw [subterms]
    exact List.mem_cons_of_mem _ ih
  | firstMatch hmem _ ih =>
    rw [subterms, subtermsOfCases_eq_flatMap]
    exact List.mem_cons_of_mem _ (List.mem_flatMap.mpr ⟨_, hmem, ih⟩)
  | all hmem _ ih | any hmem _ ih | combine hmem _ ih =>
    rw [subterms, subtermsOfTerms_eq_flatMap]
    exact List.mem_cons_of_mem _ (List.mem_flatMap.mpr ⟨_, hmem, ih⟩)

/-- Whatever an expression itself refers to is there: a bit of some word, the category of events, at
least one case or term, a bound that is finite and not negative, and the combiner. -/
def Resolves (v : Vocabulary) (cs : Combiners) : Expr → Prop
  | .bitfield p group bit _ => ∃ path i, bitTarget? v p group bit = some (path, i) ∧ i ≤ 63
  | .event _ _ category _ => ∀ name, category = some name → ∃ events, v.category? name = some events
  | .firstMatch cases _ => cases ≠ []
  | .all terms | .any terms => terms ≠ []
  | .recent _ within => ∃ x, within = .finite x ∧ 0 ≤ x.units
  | .combine name _ => ∃ f, cs name = some f
  | .path .. | .map .. | .not .. | .compare .. | .literal .. => True

variable {v : Vocabulary} {cs : Combiners} {s : Scene}

theorem exists_bitTarget? {p group : Option String} {bit : BitRef}
    (h : bitFault? v p group bit = none) :
    ∃ path i, bitTarget? v p group bit = some (path, i) ∧ i ≤ 63 := by
  unfold bitFault? at h
  split at h
  · cases h
  · cases h
  -- at a path, only an index says which bit is meant
  · next p =>
    split at h
    · cases h
    · split at h
      · next i =>
        split at h
        · cases h
        · next hi => exact ⟨p, i, rfl, Nat.not_lt.mp hi⟩
      · cases h
  · next g =>
    split at h
    · cases h
    · split at h
      · cases h
      · next hsome =>
        rw [Option.isNone_iff_eq_none] at hsome
        obtain ⟨⟨path, i⟩, htarget⟩ := Option.ne_none_iff_exists'.mp hsome
        obtain ⟨-, -, -, hi⟩ := Vocabulary.of_resolveBit? htarget
        exact ⟨path, i, htarget, hi⟩

theorem exists_category? {name c : String} {category : Option String}
    (h : eventFault? v name category = none) (hc : category = some c) :
    ∃ events, v.category? c = some events := by
  subst hc
  unfold eventFault? at h
  dsimp only at h
  split at h
  · cases h
  · split at h
    · cases h
    · cases hcategory : v.category? c with
      | some events => exact ⟨events, rfl⟩
      | none =>
        rw [hcategory] at h
        cases h

theorem resolves_of_ownFault? {e : Expr} (h : ownFault? v e = none)
    (hcombiner : ∀ name, Catalog.combinerOf? e = some name → (cs name).isSome = true) :
    e.Resolves v cs := by
  cases e with
  | path | map | not | compare | literal => trivial
  | bitfield p group bit default => exact exists_bitTarget? h
  | event name field category default => exact fun c hc => exists_category? h hc
  | firstMatch cases default =>
    rintro rfl
    cases h
  | all terms =>
    rintro rfl
    cases h
  | any terms =>
    rintro rfl
    cases h
  | recent name within =>
    rw [ownFault?] at h
    split at h
    · cases h
    · split at h
      · cases h
      · next hbound =>
        cases within with
        | finite x => exact ⟨x, rfl, by simpa [isBound] using hbound⟩
        | infinity negative => exact absurd rfl hbound
        | nan => exact absurd rfl hbound
  | combine name inputs => exact Option.isSome_iff_exists.mp (hcombiner name rfl)

/-! ## Evaluation -/

/-- The value of one bit, by a shift. -/
def bitAtChecked (s : Scene) (target : String × Nat) : Except Overflow (Option Json) :=
  match s.flagWord? target.1 with
  | some word => (shiftBit word target.2).map fun b => some (Json.ofNat b)
  | none => .ok none

theorem bitAtChecked_eq_ok {path : String} {i : Nat} (h : i ≤ 63) :
    bitAtChecked s (path, i) = .ok (bitAt? s (path, i)) := by
  unfold bitAtChecked bitAt?
  cases s.flagWord? path with
  | none => rfl
  | some word =>
    show (shiftBit word i).map _ = _
    rw [shiftBit_eq_ok h]
    rfl

mutual

/-- The value of an expression, with shifts that may fail. -/
def evalChecked (v : Vocabulary) (cs : Combiners) (s : Scene) : Expr → Except Overflow (Option Json)
  | .bitfield p group bit default =>
    match bitTarget? v p group bit with
    | some target => (bitAtChecked s target).map (·.or default)
    | none => .ok default
  | .map input table default => do
    let a ← evalChecked v cs s input
    .ok (((a.bind Json.key?).bind (Table.get? table)).or default)
  | .firstMatch cases default => evalCasesChecked v cs s default cases
  | .all terms => (decideAllChecked v cs s false terms).map (·.map .bool)
  | .any terms => (decideAnyChecked v cs s false terms).map (·.map .bool)
  | .not term => do
    let a ← evalChecked v cs s term
    .ok (a.map fun t => .bool (!Json.truthy (some t)))
  | .compare input comparison value => do
    let a ← evalChecked v cs s input
    .ok ((a.bind fun t => comparison.apply t value).map .bool)
  -- all inputs are evaluated before the combiner is looked for
  | .combine combiner inputs => do
    let values ← evalEachChecked v cs s inputs
    .ok ((cs combiner).bind fun f => f values)
  | .path p default => .ok (eval v cs s (.path p default))
  | .event name field category default => .ok (eval v cs s (.event name field category default))
  | .recent name within => .ok (eval v cs s (.recent name within))
  | .literal value => .ok (eval v cs s (.literal value))

def evalCasesChecked (v : Vocabulary) (cs : Combiners) (s : Scene) (default : Option Json) :
    List (Expr × Json) → Except Overflow (Option Json)
  | [] => .ok default
  | (condition, value) :: rest => do
    match ← evalChecked v cs s condition with
    | none => .ok none
    | some t =>
      if Json.truthy (some t) then .ok (some value) else evalCasesChecked v cs s default rest

def decideAllChecked (v : Vocabulary) (cs : Combiners) (s : Scene) (undecided : Bool) :
    List Expr → Except Overflow (Option Bool)
  | [] => .ok (if undecided then none else some true)
  | term :: rest => do
    match ← evalChecked v cs s term with
    | none => decideAllChecked v cs s true rest
    | some t =>
      if Json.truthy (some t) then decideAllChecked v cs s undecided rest else .ok (some false)

def decideAnyChecked (v : Vocabulary) (cs : Combiners) (s : Scene) (undecided : Bool) :
    List Expr → Except Overflow (Option Bool)
  | [] => .ok (if undecided then none else some false)
  | term :: rest => do
    match ← evalChecked v cs s term with
    | none => decideAnyChecked v cs s true rest
    | some t =>
      if Json.truthy (some t) then .ok (some true) else decideAnyChecked v cs s undecided rest

def evalEachChecked (v : Vocabulary) (cs : Combiners) (s : Scene) :
    List Expr → Except Overflow (List (Option Json))
  | [] => .ok []
  | e :: rest => do
    let a ← evalChecked v cs s e
    let others ← evalEachChecked v cs s rest
    .ok (a :: others)

end

mutual

/-- No shift fails in an expression all of whose references resolve. -/
theorem evalChecked_eq_ok : ∀ e : Expr, (∀ t ∈ e.subterms, t.Resolves v cs) →
    evalChecked v cs s e = .ok (eval v cs s e)
  | .path p default, _ => by simp only [evalChecked]
  | .event name field category default, _ => by simp only [evalChecked]
  | .recent name within, _ => by simp only [evalChecked]
  | .literal value, _ => by simp only [evalChecked]
  | .bitfield p group bit default, h => by
    obtain ⟨path, i, htarget, hi⟩ := h _ (self_mem_subterms _)
    simp only [evalChecked, eval, htarget, bitAtChecked_eq_ok hi, Option.bind_some]
    rfl
  | .map input table default, h => by
    rw [subterms, List.forall_mem_cons] at h
    simp only [evalChecked, eval, evalChecked_eq_ok input h.2]
    rfl
  | .compare input comparison value, h => by
    rw [subterms, List.forall_mem_cons] at h
    simp only [evalChecked, eval, evalChecked_eq_ok input h.2]
    rfl
  | .not term, h => by
    rw [subterms, List.forall_mem_cons] at h
    simp only [evalChecked, eval, evalChecked_eq_ok term h.2]
    rfl
  | .firstMatch cases default, h => by
    rw [subterms, List.forall_mem_cons] at h
    simp only [evalChecked, eval, evalCasesChecked_eq_ok default cases h.2]
  | .all terms, h => by
    rw [subterms, List.forall_mem_cons] at h
    simp only [evalChecked, eval, decideAllChecked_eq_ok false terms h.2]
    rfl
  | .any terms, h => by
    rw [subterms, List.forall_mem_cons] at h
    simp only [evalChecked, eval, decideAnyChecked_eq_ok false terms h.2]
    rfl
  | .combine combiner inputs, h => by
    rw [subterms, List.forall_mem_cons] at h
    simp only [evalChecked, eval, evalEachChecked_eq_ok inputs h.2]
    rfl

theorem evalCasesChecked_eq_ok (default : Option Json) : ∀ cases : List (Expr × Json),
    (∀ t ∈ subtermsOfCases cases, t.Resolves v cs) →
      evalCasesChecked v cs s default cases = .ok (evalCases v cs s default cases)
  | [], _ => by simp only [evalCasesChecked, evalCases]
  | (condition, value) :: rest, h => by
    rw [subtermsOfCases, List.forall_mem_append] at h
    rw [evalCasesChecked, evalCases, evalChecked_eq_ok condition h.1]
    cases eval v cs s condition with
    | none => rfl
    | some t =>
      show (if Json.truthy (some t) then Except.ok (some value) else _) =
        Except.ok (if Json.truthy (some t) then some value else _)
      rw [evalCasesChecked_eq_ok default rest h.2]
      split <;> rfl

theorem decideAllChecked_eq_ok (undecided : Bool) : ∀ terms : List Expr,
    (∀ t ∈ subtermsOfTerms terms, t.Resolves v cs) →
      decideAllChecked v cs s undecided terms = .ok (decideAll v cs s undecided terms)
  | [], _ => by simp only [decideAllChecked, decideAll]
  | term :: rest, h => by
    rw [subtermsOfTerms, List.forall_mem_append] at h
    rw [decideAllChecked, decideAll, evalChecked_eq_ok term h.1]
    cases eval v cs s term with
    | none => exact decideAllChecked_eq_ok true rest h.2
    | some t =>
      show (if Json.truthy (some t) then _ else Except.ok (some false)) =
        Except.ok (if Json.truthy (some t) then _ else some false)
      rw [decideAllChecked_eq_ok undecided rest h.2]
      split <;> rfl

theorem decideAnyChecked_eq_ok (undecided : Bool) : ∀ terms : List Expr,
    (∀ t ∈ subtermsOfTerms terms, t.Resolves v cs) →
      decideAnyChecked v cs s undecided terms = .ok (decideAny v cs s undecided terms)
  | [], _ => by simp only [decideAnyChecked, decideAny]
  | term :: rest, h => by
    rw [subtermsOfTerms, List.forall_mem_append] at h
    rw [decideAnyChecked, decideAny, evalChecked_eq_ok term h.1]
    cases eval v cs s term with
    | none => exact decideAnyChecked_eq_ok true rest h.2
    | some t =>
      show (if Json.truthy (some t) then Except.ok (some true) else _) =
        Except.ok (if Json.truthy (some t) then some true else _)
      rw [decideAnyChecked_eq_ok undecided rest h.2]
      split <;> rfl

theorem evalEachChecked_eq_ok : ∀ es : List Expr,
    (∀ t ∈ subtermsOfTerms es, t.Resolves v cs) →
      evalEachChecked v cs s es = .ok (evalEach v cs s es)
  | [], _ => by simp only [evalEachChecked, evalEach]
  | e :: rest, h => by
    rw [subtermsOfTerms, List.forall_mem_append] at h
    rw [evalEachChecked, evalEach, evalChecked_eq_ok e h.1, evalEachChecked_eq_ok rest h.2]
    rfl

end

/-- Without the checks, a shift can fail. -/
example :
    let s : Scene := ⟨⟨.dashboard, none, ⟨0, 0⟩, .object [("x", .ofNat 1)]⟩, .absent, .empty, ⟨0, 0⟩⟩
    let e : Expr := .bitfield (some "x") none (.index 64) none
    (evalChecked ⟨[], []⟩ .absent s e).toOption.isNone = true := by
  decide +kernel

end Expr

/-! ## Catalogs and snapshots -/

/-- What comes of a signal on a scene, with shifts that may fail. -/
def Signal.readChecked (v : Vocabulary) (cs : Combiners) (scene : Scene) (s : Signal) :
    Except Overflow Reading := do
  match ← s.expr.evalChecked v cs scene with
  | some raw => .ok (s.accept raw)
  | none => .ok .absent

/-- The values of all signals on a scene, with shifts that may fail. -/
def Deriver.deriveChecked (d : Deriver) (scene : Scene) : Except Overflow Derived := do
  let readings ← d.catalog.signals.mapM fun s =>
    (s.readChecked d.catalog.vocabulary d.combiners scene).map fun r => (s, r)
  .ok ⟨readings.map fun (s, r) => s.entry r, readings.filterMap fun (_, r) => r.diagnostic?⟩

/-- Whatever stands in a signal resolves, if its catalog is accepted and has all combiners. -/
theorem Catalog.Accepted.resolves {c : Catalog} (hc : c.Accepted) {cs : Combiners}
    (hcs : c.missingCombiner? cs = none) {s : Signal} (hs : s ∈ c.signals) {e : Expr}
    (he : e ∈ s.expr.subterms) : e.Resolves c.vocabulary cs := by
  obtain ⟨-, -, -, hfault, -⟩ := Signal.checks_of_fault? (hc.fault?_eq_none hs)
  refine Expr.resolves_of_ownFault? (Expr.fault?_eq_none_iff.mp hfault e he) fun name hname => ?_
  have hmem : (s.id, e) ∈ c.subterms := List.mem_flatMap.mpr ⟨s, hs, List.mem_map_of_mem he⟩
  have hmissing := List.findSome?_eq_none_iff.mp hcs (s.id, e) hmem
  cases hf : cs name with
  | some f => rfl
  | none => simp [hname, hf] at hmissing

theorem Deriver.missingCombiner?_of_build {c : Catalog} {cs : Combiners} {d : Deriver}
    (h : Deriver.build c cs = .ok d) : c.missingCombiner? cs = none := by
  unfold Deriver.build at h
  split at h
  · cases h
  · next hmissing => exact hmissing

/-- No derivation fails, on whatever scene. -/
theorem Deriver.deriveChecked_eq_ok {d : Deriver} (hc : d.catalog.Accepted)
    (hcs : d.catalog.missingCombiner? d.combiners = none) (scene : Scene) :
    d.deriveChecked scene = .ok (d.derive scene) := by
  have hread : ∀ s ∈ d.catalog.signals,
      (s.readChecked d.catalog.vocabulary d.combiners scene).map (fun r => (s, r)) =
        .ok (s, d.read scene s) := by
    intro s hs
    have heval := Expr.evalChecked_eq_ok (s := scene) s.expr fun e he => hc.resolves hcs hs he
    unfold Signal.readChecked Deriver.read Signal.read
    rw [heval]
    cases s.expr.eval d.catalog.vocabulary d.combiners scene <;> rfl
  unfold Deriver.deriveChecked
  rw [mapM_eq_ok hread]
  rfl

end Telltale
