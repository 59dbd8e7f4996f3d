import Telltale.Proofs.Expr.Algebra
import Telltale.Proofs.Json.Kinds

/-!
# Expressions and the kinds of numbers

Hardly anything that an expression does with what it reads depends on the kinds of numbers. Only keys
and words of flags may, and comparisons with values that have numbers inside.

* `Scene.Alike` — two scenes differ in the kinds of some numbers alone.
* `Scene.Alike.lookup` — what they have at a path is alike.
* `Combiners.OverlookKinds` — combiners do not look at the kinds of numbers. The standard ones do not
  (`Combiners.overlookKinds_standard`).
* `Expr.OverlookKinds` — expressions do not do what may depend on the kinds of numbers.
* `Expr.eval_alike` — then their values on two such scenes are alike.
-/

namespace Telltale

open Json (Alike AlikeItems AlikeFields)
open Number (IsRespelling KeepsKeys KeepsWords)

variable {R : Number → Number → Prop}

/-! ## Values that may be absent -/

/-- Two values that may be absent are both absent, or alike. -/
def Json.Alike? (R : Number → Number → Prop) (v w : Option Json) : Prop := Option.Rel (Alike R) v w

namespace Json.Alike?

variable {v w : Option Json}

theorem refl (hR : IsRespelling R) (v : Option Json) : Alike? R v v := by
  cases v with
  | none => exact .none
  | some a => exact .some (.refl hR.refl a)

/-- What is found in the value is alike where it is so for every value. -/
theorem bind {f g : Json → Option Json} (h : Alike? R v w)
    (hfg : ∀ {a b}, Alike R a b → Alike? R (f a) (g b)) :
    Alike? R (v.bind f) (w.bind g) := by
  cases h with
  | none => exact .none
  | some hab => exact hfg hab

/-- A reading that takes alike values alike takes them so where they may be absent. -/
theorem bind_eq {f : Json → Option α} (h : Alike? R v w)
    (hf : ∀ {a b}, Alike R a b → f a = f b) : v.bind f = w.bind f := by
  cases h with
  | none => rfl
  | some hab => exact hf hab

theorem map_eq {f : Json → α} (h : Alike? R v w)
    (hf : ∀ {a b}, Alike R a b → f a = f b) : v.map f = w.map f := by
  cases h with
  | none => rfl
  | some hab => exact congrArg some (hf hab)

theorem or (hR : IsRespelling R) (h : Alike? R v w) (default : Option Json) :
    Alike? R (v.or default) (w.or default) := by
  cases h with
  | none => exact refl hR default
  | some hab => exact .some hab

end Json.Alike?

open Json (Alike?)

theorem Json.Alike.nonNull? {a b : Json} (h : Alike R a b) :
    Alike? R a.nonNull? b.nonNull? := by
  cases h with
  | null => exact .none
  | bool b => exact .some (.bool b)
  | number h => exact .some (.number h)
  | string s => exact .some (.string s)
  | array h => exact .some (.array h)
  | object h => exact .some (.object h)

/-- Respelled values differ in kinds alone. -/
theorem Json.Alike.same (hR : IsRespelling R) {a b : Json} (h : Alike R a b) :
    Alike Number.SameNumber a b :=
  h.mono hR.same

theorem Json.Alike.truthy (hR : IsRespelling R) {a b : Json} (h : Alike R a b) :
    Json.truthy (some a) = Json.truthy (some b) :=
  h.truthy_eq fun hmn => (hR.same hmn).units_eq

/-! ## Scenes -/

/-- Two scenes differ in nothing but some numbers of their documents, which are written in another
kind. -/
structure Scene.Alike (R : Number → Number → Prop) (s s' : Scene) : Prop where
  source : s.frame.source = s'.frame.source
  event : s.frame.event = s'.frame.event
  data : Json.Alike R s.frame.data s'.frame.data
  state : Alike? R s.externals.state s'.externals.state
  capi : Alike? R s.externals.capi s'.externals.capi
  recency : s.recency = s'.recency
  now : s.now = s'.now

theorem Path.step_alike {a b : Json} (h : Alike R a b) (segment : String) :
    Alike? R (step a segment) (step b segment) := by
  cases h with
  | null | bool | number | string => exact .none
  | array h =>
    unfold step
    cases position? segment with
    | none => exact .none
    | some i => exact h.getElem? i
  | object h => exact h.get? segment

theorem Path.walk_alike {a b : Json} (h : Alike R a b) (segments : List String) :
    Alike? R (walk a segments) (walk b segments) := by
  induction segments generalizing a b with
  | nil => exact h.nonNull?
  | cons segment rest ih =>
    rw [walk_cons, walk_cons]
    exact (step_alike h segment).bind ih

namespace Scene.Alike

variable {s s' : Scene}

theorem document? (h : s.Alike R s') (source : Source) :
    Alike? R (Telltale.document? s.frame s.externals source)
      (Telltale.document? s'.frame s'.externals source) := by
  unfold Telltale.document?
  rw [h.source]
  split
  · exact .some h.data
  · cases source with
    | state => exact h.state
    | capi => exact h.capi
    | dashboard | journal => exact .none

/-- What two such scenes have at a path is alike. -/
theorem lookup (h : s.Alike R s') (path : String) : Alike? R (s.lookup path) (s'.lookup path) := by
  unfold Scene.lookup Telltale.lookup
  generalize Path.split path = segments
  cases segments with
  | nil => exact Path.walk_alike h.data []
  | cons head rest =>
    simp only [lookupSegments]
    cases Source.ofName? head with
    | none => exact Path.walk_alike h.data (head :: rest)
    | some source => exact (h.document? source).bind fun hab => Path.walk_alike hab rest

theorem eventName? (h : s.Alike R s') : s.frame.eventName? = s'.frame.eventName? := by
  have hfield : (s.frame.data.field? "event").bind Json.string? =
      (s'.frame.data.field? "event").bind Json.string? := by
    have hdata := h.data
    generalize s.frame.data = a at hdata
    generalize s'.frame.data = b at hdata
    have halike : Alike? R (a.field? "event") (b.field? "event") := by
      cases hdata with
      | object hfields => exact hfields.get? "event"
      | null | bool | number | string | array => exact .none
    apply halike.bind_eq
    rintro _ _ ⟨⟩ <;> rfl
  unfold Frame.eventName?
  rw [h.source, h.event, hfield]

end Scene.Alike

/-! ## Combiners -/

/-- Combiners do not look at the kinds of numbers: for inputs that are alike they have results that
are. -/
def Combiners.OverlookKinds (R : Number → Number → Prop) (cs : Combiners) : Prop :=
  ∀ name f, cs name = some f → ∀ inputs inputs', List.Forall₂ (Alike? R) inputs inputs' →
    Alike? R (f inputs) (f inputs')

theorem Double.add?_congr {x y y' : Double} (hx : x.negativeZero = false)
    (h : y.units = y'.units) : x.add? y = x.add? y' := by
  simp only [add?, hx, h, Bool.false_and, Bool.or_false]

theorem Double.fits_one : Fits 1 := by
  have hplace : 0 < topExponent := by
    unfold topExponent
    decide
  exact fits_mul_two_pow (by decide : 1 ≤ 2 ^ (53 : Nat)) hplace

/-- A sum that begins without a negative zero never comes to one. -/
theorem Double.negativeZero_add? {x y z : Double} (hx : x.negativeZero = false)
    (h : x.add? y = some z) : z.negativeZero = false := by
  unfold add? at h
  simp only [hx, Bool.false_and, Bool.or_false] at h
  generalize x.units + y.units = sum at h
  split at h
  · cases h
  · next hfinite =>
    cases h
    rw [overflows, decide_eq_true_eq, Nat.not_le] at hfinite
    unfold nearest
    rw [dif_pos hfinite]
    show (decide (sum < 0) && roundUnits sum.natAbs 1 == 0) = false
    rw [Bool.and_eq_false_iff, decide_eq_false_iff_not, beq_eq_false_iff_ne]
    by_cases hneg : sum < 0
    · right
      have hreach : 1 ≤ roundUnits sum.natAbs 1 := le_roundUnits fits_one Nat.one_pos (by omega)
      omega
    · exact .inl hneg

namespace Combiner

variable {inputs inputs' : List (Option Json)}

theorem first_alike (h : List.Forall₂ (Alike? R) inputs inputs') :
    Alike? R (first inputs) (first inputs') := by
  induction h with
  | nil => exact .none
  | cons hvalue _ ih =>
    cases hvalue with
    | none => exact ih
    | some hab => exact .some hab

theorem count_eq (h : List.Forall₂ (Alike? R) inputs inputs') : count inputs = count inputs' := by
  have hcount : inputs.countP Option.isSome = inputs'.countP Option.isSome := by
    induction h with
    | nil => rfl
    | cons hvalue _ ih =>
      rw [List.countP_cons, List.countP_cons, ih]
      cases hvalue with
      | none => rfl
      | some hab => rfl
  rw [count, count, hcount]

theorem list_alike (h : List.Forall₂ (Alike? R) inputs inputs') :
    Alike? R (list inputs) (list inputs') := by
  have hitems : AlikeItems R (inputs.map (·.getD .null))
      (inputs'.map (·.getD .null)) := by
    induction h with
    | nil => exact .nil
    | cons hvalue _ ih =>
      cases hvalue with
      | none => exact .cons .null ih
      | some hab => exact .cons hab ih
  exact .some (.array hitems)

/-- Doubles of the same values, added up from a sum that is no negative zero, have one sum. -/
theorem foldlM_add?_eq {ys ys' : List Double} (h : List.Forall₂ (·.units = ·.units) ys ys') :
    ∀ x : Double, x.negativeZero = false → ys.foldlM Double.add? x = ys'.foldlM Double.add? x := by
  induction h with
  | nil => exact fun _ _ => rfl
  | cons hunits _ ih =>
    intro x hx
    rw [List.foldlM_cons, List.foldlM_cons, Double.add?_congr hx hunits]
    cases hsum : x.add? _ with
    | none => rfl
    | some z => exact ih z (Double.negativeZero_add? hx hsum)

theorem addends_alike (hR : IsRespelling R) (h : List.Forall₂ (Alike? R) inputs inputs') :
    List.Forall₂ (fun y y' : Double => y.units = y'.units) (inputs.filterMap addend?)
      (inputs'.filterMap addend?) := by
  induction h with
  | nil => exact .nil
  | cons hvalue _ ih =>
    cases hvalue with
    | none => exact ih
    | some hab =>
      cases hab with
      | number hmn => exact .cons (hR.same hmn).units_eq ih
      | null | bool | string | array | object => exact ih

theorem sum_eq (hR : IsRespelling R) (h : List.Forall₂ (Alike? R) inputs inputs') :
    sum inputs = sum inputs' := by
  have haddends := addends_alike hR h
  rw [sum, sum, foldlM_add?_eq haddends _ rfl]

end Combiner

/-- The standard combiners do not look at the kinds of numbers. -/
theorem Combiners.overlookKinds_standard (hR : IsRespelling R) : standard.OverlookKinds R := by
  intro name f hf inputs inputs' h
  unfold standard at hf
  split at hf <;> cases hf
  · rw [Combiner.sum_eq hR h]
    exact .refl hR _
  · exact Combiner.first_alike h
  · rw [Combiner.count_eq h]
    exact .refl hR _
  · exact Combiner.list_alike h
  · exact .none

/-! ## Expressions -/

namespace Expr

/-- Some expressions do nothing that may depend on the kinds of numbers: what they compare with for
equality is a number or holds none, and they look up keys and read words of flags only where respelled
numbers keep these. -/
structure OverlookKinds (R : Number → Number → Prop) (es : List Expr) : Prop where
  compares : ∀ input op value, compare input op value ∈ es → op.isOrdering = false → value.Shallow
  keys : ∀ input table default, map input table default ∈ es → KeepsKeys R
  words : ∀ path group bit default, bitfield path group bit default ∈ es → KeepsWords R

theorem OverlookKinds.mono {es es' : List Expr} (h : OverlookKinds R es) (hsub : es' ⊆ es) :
    OverlookKinds R es' where
  compares input op value hmem := h.compares input op value (hsub hmem)
  keys input table default hmem := h.keys input table default (hsub hmem)
  words path group bit default hmem := h.words path group bit default (hsub hmem)

variable {v : Vocabulary} {cs : Combiners} {s s' : Scene}

theorem bitAt?_alike (hR : KeepsWords R) (hs : s.Alike R s') : bitAt? s = bitAt? s' := by
  funext target
  have hword : s.flagWord? target.1 = s'.flagWord? target.1 :=
    (hs.lookup target.1).bind_eq fun hab => hab.flagWord?_eq hR
  rw [bitAt?, bitAt?, hword]

theorem eventValue?_alike (hR : IsRespelling R) (hs : s.Alike R s') (name : String)
    (field category : Option String) :
    Alike? R (eventValue? v s name field category) (eventValue? v s' name field category) := by
  unfold eventValue?
  rw [hs.eventName?]
  cases s'.frame.eventName? with
  | none => exact .none
  | some event =>
    show Alike? R (if matchesEvent v name category event then _ else none) (if _ then _ else none)
    split
    · cases field with
      | none => exact .refl hR _
      | some p => exact hs.lookup p
    · exact .none

theorem decide_alike (hR : IsRespelling R) {e : Expr} (h : Alike? R (eval v cs s e) (eval v cs s' e)) :
    e.decide v cs s = e.decide v cs s' :=
  h.map_eq fun hab => hab.truthy hR

theorem verdict_alike (hR : IsRespelling R) {e : Expr} (h : Alike? R (eval v cs s e) (eval v cs s' e)) :
    e.verdict v cs s = e.verdict v cs s' := by
  rw [verdict, verdict, decide_alike hR h]

mutual

/-- The values of an expression on two such scenes are alike. -/
theorem eval_alike (hR : IsRespelling R) (hcs : cs.OverlookKinds R)
    (hs : s.Alike R s') : ∀ e : Expr, OverlookKinds R e.subterms →
    Alike? R (eval v cs s e) (eval v cs s' e)
  | .path p default, _ => by
    simp only [eval]
    exact (hs.lookup p).or hR default
  | .bitfield p group bit default, h => by
    have hwords : KeepsWords R := h.words p group bit default (self_mem_subterms _)
    simp only [eval, bitAt?_alike hwords hs]
    exact .refl hR _
  | .event name field category default, _ => by
    simp only [eval]
    exact (eventValue?_alike hR hs name field category).or hR default
  | .recent name bound, _ => by
    simp only [eval, hs.recency, hs.now]
    exact .refl hR _
  | .literal value, _ => by
    simp only [eval]
    exact .refl hR _
  | .map input table default, h => by
    rw [subterms] at h
    have hinput := eval_alike hR hcs hs input (h.mono (List.subset_cons_self _ _))
    have hkeys : KeepsKeys R := h.keys input table default List.mem_cons_self
    simp only [eval, hinput.bind_eq fun hab => hab.key?_eq hkeys]
    exact .refl hR _
  | .compare input op value, h => by
    rw [subterms] at h
    have hinput := eval_alike hR hcs hs input (h.mono (List.subset_cons_self _ _))
    have hvalue := h.compares input op value List.mem_cons_self
    simp only [eval, hinput.bind_eq fun hab => Comparison.apply_left (hab.same hR) op hvalue]
    exact .refl hR _
  | .not term, h => by
    rw [subterms] at h
    have hterm := eval_alike hR hcs hs term (h.mono (List.subset_cons_self _ _))
    rw [eval_not, eval_not, verdict_alike hR hterm]
    exact .refl hR _
  | .firstMatch cases default, h => by
    rw [subterms] at h
    simp only [eval, evalCases_alike hR hcs hs default cases (h.mono (List.subset_cons_self _ _))]
    exact .refl hR _
  | .all terms, h => by
    rw [subterms] at h
    rw [eval_all, eval_all, verdicts_alike hR hcs hs terms (h.mono (List.subset_cons_self _ _))]
    exact .refl hR _
  | .any terms, h => by
    rw [subterms] at h
    rw [eval_any, eval_any, verdicts_alike hR hcs hs terms (h.mono (List.subset_cons_self _ _))]
    exact .refl hR _
  | .combine combiner inputs, h => by
    rw [subterms] at h
    have hinputs := evalEach_alike hR hcs hs inputs (h.mono (List.subset_cons_self _ _))
    simp only [eval]
    cases hf : cs combiner with
    | none => exact .none
    | some f => exact hcs combiner f hf _ _ hinputs

theorem evalCases_alike (hR : IsRespelling R) (hcs : cs.OverlookKinds R)
    (hs : s.Alike R s') (default : Option Json) :
    ∀ cases : List (Expr × Json), OverlookKinds R (subtermsOfCases cases) →
      evalCases v cs s default cases = evalCases v cs s' default cases
  | [], _ => by simp only [evalCases]
  | (condition, value) :: rest, h => by
    rw [subtermsOfCases] at h
    have hcondition := eval_alike hR hcs hs condition (h.mono (List.subset_append_left _ _))
    rw [evalCases_cons, evalCases_cons, decide_alike hR hcondition,
      evalCases_alike hR hcs hs default rest (h.mono (List.subset_append_right _ _))]

theorem verdicts_alike (hR : IsRespelling R) (hcs : cs.OverlookKinds R)
    (hs : s.Alike R s') : ∀ terms : List Expr,
    OverlookKinds R (subtermsOfTerms terms) →
      terms.map (verdict v cs s) = terms.map (verdict v cs s')
  | [], _ => rfl
  | term :: rest, h => by
    rw [subtermsOfTerms] at h
    have hterm := eval_alike hR hcs hs term (h.mono (List.subset_append_left _ _))
    rw [List.map_cons, List.map_cons, verdict_alike hR hterm,
      verdicts_alike hR hcs hs rest (h.mono (List.subset_append_right _ _))]

theorem evalEach_alike (hR : IsRespelling R) (hcs : cs.OverlookKinds R)
    (hs : s.Alike R s') : ∀ es : List Expr,
    OverlookKinds R (subtermsOfTerms es) →
      List.Forall₂ (Alike? R) (evalEach v cs s es) (evalEach v cs s' es)
  | [], _ => by
    simp only [evalEach]
    exact .nil
  | e :: rest, h => by
    rw [subtermsOfTerms] at h
    simp only [evalEach]
    exact .cons (eval_alike hR hcs hs e (h.mono (List.subset_append_left _ _)))
      (evalEach_alike hR hcs hs rest (h.mono (List.subset_append_right _ _)))

end

end Expr

end Telltale
