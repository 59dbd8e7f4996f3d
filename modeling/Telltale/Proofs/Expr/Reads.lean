import Telltale.Proofs.Catalog.Accepted
import Telltale.Proofs.Expr.Connectives
import Telltale.Snapshot

/-!
# What expressions read

An expression reads the frame, the documents beside it, and, where it checks for recent events, the
times at which they were last seen. Much of that may change without a change of its value.

* `Scene.SameReads`, `SameChecks` — two scenes have the same data and the same event, and checks for
  recent events come out the same on them.
* `Expr.AnswersAlike` — two scenes answer alike to the expressions that read them;
  `Expr.eval_eq_of_alike` has it of whatever these expressions are inside of.
* `Expr.eval_congr`, `Deriver.derive_of_sameReads` — so expressions and whole snapshots have the same
  values on scenes of the same reads and checks.
* `Expr.DashboardOnly` — an expression reads nothing but the data of polled frames, and has no
  default for where it finds nothing.
* `Expr.DashboardOnly.eval_congr`, `Expr.DashboardOnly.eval_eq_none` — then it does not read the
  times at all, and has no value on a frame of another source.
-/

namespace Telltale

/-! ## Times -/

/-- Checks for recent events come out the same against other times. -/
def SameChecks (r r' : Recency) (now now' : Timestamp) (es : List Expr) : Prop :=
  ∀ name bound, Expr.recent name bound ∈ es → r.within name bound now = r'.within name bound now'

/-- Two scenes have the same data at every path and the same event. -/
structure Scene.SameReads (s s' : Scene) : Prop where
  lookup : ∀ p, s.lookup p = s'.lookup p
  event : s.frame.eventName? = s'.frame.eventName?

/-- Scenes of one frame and one pair of documents differ only in their times. -/
theorem Scene.sameReads_of_frame (f : Frame) (x : Externals) (r r' : Recency)
    (now now' : Timestamp) : SameReads ⟨f, x, r, now⟩ ⟨f, x, r', now'⟩ := ⟨fun _ => rfl, rfl⟩

namespace Expr

variable {v : Vocabulary} {cs : Combiners} {s s' : Scene}

theorem bitAt?_congr (hs : s.SameReads s') : bitAt? s = bitAt? s' := by
  funext target
  rw [bitAt?, bitAt?, Scene.flagWord?, Scene.flagWord?, hs.lookup]

theorem eventValue?_congr (hs : s.SameReads s') (name : String) (field category : Option String) :
    eventValue? v s name field category = eventValue? v s' name field category := by
  unfold eventValue?
  simp only [hs.event, hs.lookup]

/-- Whether an expression reads the scene itself, and not only through those inside it. -/
def isReading : Expr → Bool
  | .path .. | .bitfield .. | .event .. | .recent .. => true
  | _ => false

/-- Two scenes answer alike to those among some expressions that read them. -/
def AnswersAlike (v : Vocabulary) (cs : Combiners) (s s' : Scene) (es : List Expr) : Prop :=
  ∀ t ∈ es, t.isReading = true → eval v cs s t = eval v cs s' t

theorem AnswersAlike.mono {es es' : List Expr} (h : AnswersAlike v cs s s' es) (hsub : es' ⊆ es) :
    AnswersAlike v cs s s' es' :=
  fun t ht => h t (hsub ht)

mutual

/-- An expression has the same value on scenes that answer alike to whatever reads them inside it. -/
theorem eval_eq_of_alike : ∀ e : Expr, AnswersAlike v cs s s' e.subterms →
    eval v cs s e = eval v cs s' e
  | .path _ _, h | .bitfield _ _ _ _, h | .event _ _ _ _, h | .recent _ _, h =>
    h _ List.mem_cons_self rfl
  | .literal value, _ => by simp only [eval]
  | .map input table default, h => by
    rw [subterms] at h
    simp only [eval, eval_eq_of_alike input (h.mono (List.subset_cons_self _ _))]
  | .compare input comparison value, h => by
    rw [subterms] at h
    simp only [eval, eval_eq_of_alike input (h.mono (List.subset_cons_self _ _))]
  | .not term, h => by
    rw [subterms] at h
    simp only [eval, eval_eq_of_alike term (h.mono (List.subset_cons_self _ _))]
  | .firstMatch cases default, h => by
    rw [subterms] at h
    simp only [eval, evalCases_eq_of_alike default cases (h.mono (List.subset_cons_self _ _))]
  | .all terms, h => by
    rw [subterms] at h
    simp only [eval, decideAll_eq_of_alike false terms (h.mono (List.subset_cons_self _ _))]
  | .any terms, h => by
    rw [subterms] at h
    simp only [eval, decideAny_eq_of_alike false terms (h.mono (List.subset_cons_self _ _))]
  | .combine combiner inputs, h => by
    rw [subterms] at h
    simp only [eval, evalEach_eq_of_alike inputs (h.mono (List.subset_cons_self _ _))]

theorem evalCases_eq_of_alike (default : Option Json) : ∀ cases : List (Expr × Json),
    AnswersAlike v cs s s' (subtermsOfCases cases) →
      evalCases v cs s default cases = evalCases v cs s' default cases
  | [], _ => by simp only [evalCases]
  | (condition, value) :: rest, h => by
    rw [subtermsOfCases] at h
    simp only [evalCases, eval_eq_of_alike condition (h.mono (List.subset_append_left _ _)),
      evalCases_eq_of_alike default rest (h.mono (List.subset_append_right _ _))]

theorem decideAll_eq_of_alike (undecided : Bool) : ∀ terms : List Expr,
    AnswersAlike v cs s s' (subtermsOfTerms terms) →
      decideAll v cs s undecided terms = decideAll v cs s' undecided terms
  | [], _ => by simp only [decideAll]
  | term :: rest, h => by
    rw [subtermsOfTerms] at h
    have hrest (undecided : Bool) :=
      decideAll_eq_of_alike undecided rest (h.mono (List.subset_append_right _ _))
    simp only [decideAll, eval_eq_of_alike term (h.mono (List.subset_append_left _ _)), hrest]

theorem decideAny_eq_of_alike (undecided : Bool) : ∀ terms : List Expr,
    AnswersAlike v cs s s' (subtermsOfTerms terms) →
      decideAny v cs s undecided terms = decideAny v cs s' undecided terms
  | [], _ => by simp only [decideAny]
  | term :: rest, h => by
    rw [subtermsOfTerms] at h
    have hrest (undecided : Bool) :=
      decideAny_eq_of_alike undecided rest (h.mono (List.subset_append_right _ _))
    simp only [decideAny, eval_eq_of_alike term (h.mono (List.subset_append_left _ _)), hrest]

theorem evalEach_eq_of_alike : ∀ es : List Expr,
    AnswersAlike v cs s s' (subtermsOfTerms es) → evalEach v cs s es = evalEach v cs s' es
  | [], _ => by simp only [evalEach]
  | e :: rest, h => by
    rw [subtermsOfTerms] at h
    simp only [evalEach, eval_eq_of_alike e (h.mono (List.subset_append_left _ _)),
      evalEach_eq_of_alike rest (h.mono (List.subset_append_right _ _))]

end

/-- An expression reads nothing but data, events and its checks for recent events. -/
theorem eval_congr (hs : s.SameReads s') (e : Expr)
    (h : SameChecks s.recency s'.recency s.now s'.now e.subterms) :
    eval v cs s e = eval v cs s' e := by
  apply eval_eq_of_alike
  intro t ht hreading
  cases t with
  | path p default => simp only [eval, hs.lookup]
  | bitfield p group bit default => simp only [eval, bitAt?_congr hs]
  | event name field category default => simp only [eval, eventValue?_congr hs]
  | recent name bound => simp only [eval, h name bound ht]
  | _ => cases hreading

end Expr

/-- A snapshot is the same on scenes where every expression of the catalog has the same value. -/
theorem Deriver.derive_of_eval_eq {d : Deriver} {s s' : Scene}
    (h : ∀ signal ∈ d.catalog.signals,
      signal.expr.eval d.catalog.vocabulary d.combiners s =
        signal.expr.eval d.catalog.vocabulary d.combiners s') :
    d.derive s = d.derive s' := by
  have hread : ∀ signal ∈ d.catalog.signals,
      (signal, d.read s signal) = (signal, d.read s' signal) := by
    intro signal hsignal
    unfold Deriver.read Signal.read
    rw [h signal hsignal]
  unfold Deriver.derive
  rw [List.map_congr_left hread]

/-- So it is on scenes with the same data and event where all checks of the catalog come out the
same. -/
theorem Deriver.derive_of_sameReads {d : Deriver} {s s' : Scene} (hs : s.SameReads s')
    (hchecks : ∀ signal ∈ d.catalog.signals,
      SameChecks s.recency s'.recency s.now s'.now signal.expr.subterms) :
    d.derive s = d.derive s' :=
  derive_of_eval_eq fun signal hsignal => Expr.eval_congr hs signal.expr (hchecks signal hsignal)

/-! ## Paths into the data of polled frames -/

/-- A path leads into the data of polled frames, and nowhere on other frames. -/
def Path.IsDashboard (p : String) : Prop := p = "dashboard" ∨ ∃ rest, p = "dashboard." ++ rest

theorem Path.IsDashboard.split_eq {p : String} (h : IsDashboard p) :
    ∃ rest, split p = "dashboard" :: rest := by
  have hself : split "dashboard" = ["dashboard"] := by decide
  rcases h with rfl | ⟨rest, rfl⟩
  · exact ⟨[], hself⟩
  · have hjoin : "dashboard." ++ rest = "dashboard" ++ "." ++ rest := rfl
    exact ⟨split rest, by rw [hjoin, split_append_dot, hself, List.singleton_append]⟩

/-- Such a path leads nowhere on a frame of another source, whatever documents are beside it. -/
theorem lookup_eq_none {p : String} (hp : Path.IsDashboard p) {f : Frame}
    (hf : f.source ≠ .dashboard) (x : Externals) : lookup f x p = none := by
  obtain ⟨rest, hsplit⟩ := hp.split_eq
  have hdocument : document? f x .dashboard = none := by
    rw [document?, if_neg hf.symm]
    rfl
  have hname : Source.ofName? "dashboard" = some .dashboard := Source.ofName?_name .dashboard
  rw [lookup, hsplit, lookupSegments, hname]
  show (document? f x .dashboard).bind _ = none
  rw [hdocument, Option.bind_none]

/-! ## Expressions over polled frames -/

namespace Expr

/-- An expression looks only at paths into the data of polled frames and at bits of words there, and
at nothing else, and has no default for a value that it does not find. -/
inductive DashboardOnly (v : Vocabulary) : Expr → Prop where
  | path {p : String} (hp : Path.IsDashboard p) : DashboardOnly v (.path p none)
  | bit {p : String} {bit : BitRef} (hp : Path.IsDashboard p) :
    DashboardOnly v (.bitfield (some p) none bit none)
  | groupBit {group : String} {g : FlagGroup} {bit : BitRef} (hgroup : v.group? group = some g)
    (hp : Path.IsDashboard g.path) : DashboardOnly v (.bitfield none (some group) bit none)
  | map {input : Expr} {table : List (String × Json)} (h : DashboardOnly v input) :
    DashboardOnly v (.map input table none)
  | compare {input : Expr} {comparison : Comparison} {value : Json} (h : DashboardOnly v input) :
    DashboardOnly v (.compare input comparison value)
  | not {term : Expr} (h : DashboardOnly v term) : DashboardOnly v (.not term)
  | all {terms : List Expr} (h : ∀ e ∈ terms, DashboardOnly v e) : DashboardOnly v (.all terms)
  | any {terms : List Expr} (h : ∀ e ∈ terms, DashboardOnly v e) : DashboardOnly v (.any terms)
  | firstMatch {cases : List (Expr × Json)} {default : Option Json}
    (h : ∀ c ∈ cases, DashboardOnly v c.1) : DashboardOnly v (.firstMatch cases default)

variable {v : Vocabulary} {cs : Combiners}

/-- Such an expression does not check for recent events. -/
theorem DashboardOnly.recent_notMem {e : Expr} (h : e.DashboardOnly v) (name : String)
    (bound : Extended) : .recent name bound ∉ e.subterms := by
  induction h with
  | path | bit | groupBit => simp only [subterms, List.mem_singleton, reduceCtorEq, not_false_eq_true]
  | map _ ih | compare _ ih | not _ ih =>
    simpa only [subterms, List.mem_cons, reduceCtorEq, false_or] using ih
  | all _ ih | any _ ih =>
    simp only [subterms, List.mem_cons, reduceCtorEq, false_or, subtermsOfTerms_eq_flatMap,
      List.mem_flatMap]
    rintro ⟨e, he, hmem⟩
    exact ih e he hmem
  | firstMatch _ ih =>
    simp only [subterms, List.mem_cons, reduceCtorEq, false_or, subtermsOfCases_eq_flatMap,
      List.mem_flatMap]
    rintro ⟨c, hc, hmem⟩
    exact ih c hc hmem

/-- Such an expression has the same value whatever was seen before. -/
theorem DashboardOnly.eval_congr {e : Expr} (h : e.DashboardOnly v) (f : Frame) (x : Externals)
    (r r' : Recency) (now : Timestamp) : eval v cs ⟨f, x, r, now⟩ e = eval v cs ⟨f, x, r', now⟩ e :=
  Expr.eval_congr (Scene.sameReads_of_frame f x r r' now now) e fun name bound hmem =>
    absurd hmem (h.recent_notMem name bound)

/-- Terms in a row without a value leave a conjunction and a disjunction without one. -/
theorem eval_eq_none_of_terms {s : Scene} {terms : List Expr} (hne : terms ≠ [])
    (h : ∀ e ∈ terms, eval v cs s e = none) :
    eval v cs s (.all terms) = none ∧ eval v cs s (.any terms) = none := by
  have hundecided : ∀ w ∈ terms.map (verdict v cs s), w = .undecided := by
    intro w hw
    obtain ⟨e, he, rfl⟩ := List.mem_map.mp hw
    exact verdict_of_eval_none (h e he)
  have hmap : terms.map (verdict v cs s) ≠ [] := mt List.map_eq_nil_iff.mp hne
  constructor
  · refine (verdict_iff (.all terms)).2.2.mp ?_
    rw [verdict_all, Verdict.all_of_undecided hundecided, if_neg hmap]
  · refine (verdict_iff (.any terms)).2.2.mp ?_
    rw [verdict_any, Verdict.any_of_undecided hundecided, if_neg hmap]

/-- Such an expression has no value on a frame of another source. The checks of a catalog matter
here: they leave no conjunction, disjunction or row of cases empty. -/
theorem DashboardOnly.eval_eq_none {e : Expr} (h : e.DashboardOnly v) (hfault : e.fault? v = none)
    {s : Scene} (hs : s.frame.source ≠ .dashboard) : eval v cs s e = none := by
  rw [fault?_eq_none_iff] at hfault
  have hlookup {p : String} (hp : Path.IsDashboard p) : s.lookup p = none :=
    lookup_eq_none hp hs s.externals
  have hbit {p : String} (hp : Path.IsDashboard p) (i : Nat) : bitAt? s (p, i) = none := by
    rw [bitAt?, Scene.flagWord?, hlookup hp]
    rfl
  induction h with
  | path hp =>
    simp only [eval]
    rw [hlookup hp, Option.none_or]
  | @bit p bit hp =>
    simp only [eval, Option.or_none]
    cases bit with
    | index i => exact hbit hp i
    | name name => rfl
  | @groupBit group g bit hgroup hp =>
    simp only [eval, Option.or_none, bitTarget?]
    refine Option.bind_eq_none_iff.mpr ?_
    rintro ⟨path, i⟩ htarget
    obtain ⟨g', hgroup', rfl, -⟩ := Vocabulary.of_resolveBit? htarget
    rw [hgroup] at hgroup'
    cases hgroup'
    exact hbit hp i
  | map _ ih =>
    rw [subterms, List.forall_mem_cons] at hfault
    simp only [eval, ih hfault.2, Option.bind_none, Option.or_none]
  | compare _ ih =>
    rw [subterms, List.forall_mem_cons] at hfault
    simp only [eval, ih hfault.2, Option.bind_none, Option.map_none]
  | not _ ih =>
    rw [subterms, List.forall_mem_cons] at hfault
    simp only [eval, ih hfault.2, Option.map_none]
  | @all terms _ ih =>
    rw [subterms, List.forall_mem_cons, subtermsOfTerms_eq_flatMap] at hfault
    have hne : terms ≠ [] := by
      rintro rfl
      cases hfault.1
    exact (eval_eq_none_of_terms hne fun e he => ih e he fun t ht =>
      hfault.2 t (List.mem_flatMap.mpr ⟨e, he, ht⟩)).1
  | @any terms _ ih =>
    rw [subterms, List.forall_mem_cons, subtermsOfTerms_eq_flatMap] at hfault
    have hne : terms ≠ [] := by
      rintro rfl
      cases hfault.1
    exact (eval_eq_none_of_terms hne fun e he => ih e he fun t ht =>
      hfault.2 t (List.mem_flatMap.mpr ⟨e, he, ht⟩)).2
  | @firstMatch cases default _ ih =>
    rw [subterms, List.forall_mem_cons, subtermsOfCases_eq_flatMap] at hfault
    cases cases with
    | nil => cases hfault.1
    | cons c rest =>
      have hc := ih c List.mem_cons_self fun t ht =>
        hfault.2 t (List.mem_flatMap.mpr ⟨c, List.mem_cons_self, ht⟩)
      simp only [eval, evalCases, hc]

end Expr

end Telltale
