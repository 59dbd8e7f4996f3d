import Telltale.Proofs.Expr.Algebra

/-!
# Values survive more data

Where an expression has a value, it keeps it on every scene that has more to read. Only what stands
in for missing data has to be left out: a default of the operation itself, which more data may drive
out, and a combiner, which may do anything.

* `Expr.standsIn` — whether an operation may put something in the place of what it does not find.
* `Expr.paths` — the paths that an expression reads.
* `Scene.Keeps` — a scene has the data of another one at some paths, its event and its times.
* `Expr.Survives` — an expression keeps its value from one scene to another, if it has one.
* `Expr.eval_survives` — expressions without stand-ins keep their values.
-/

namespace Telltale

/-! ## What is read -/

namespace Expr

/-- Whether an operation may put something in the place of what it does not find. -/
def standsIn : Expr → Bool
  | .path _ default | .bitfield _ _ _ default | .map _ _ default | .event _ _ _ default =>
    default.isSome
  | .combine .. => true
  | .firstMatch .. | .all _ | .any _ | .not _ | .recent .. | .compare .. | .literal _ => false

/-- The paths that an operation itself reads: for a bit, the one where its word is found. -/
def ownPaths (v : Vocabulary) : Expr → List String
  | .path p _ => [p]
  | .bitfield p group bit _ => ((bitTarget? v p group bit).map (·.1)).toList
  | .event _ field _ _ => field.toList
  | _ => []

/-- The paths that an expression reads, at any depth. -/
def paths (v : Vocabulary) (e : Expr) : List String := e.subterms.flatMap (ownPaths v)

end Expr

/-- A scene has whatever another one has at some paths, the same event if the other one has one, and
the same times. -/
structure Scene.Keeps (s s' : Scene) (paths : List String) : Prop where
  lookup : ∀ p ∈ paths, ∀ value, s.lookup p = some value → s'.lookup p = some value
  event : ∀ name, s.frame.eventName? = some name → s'.frame.eventName? = some name
  recency : s'.recency = s.recency
  now : s'.now = s.now

theorem Scene.Keeps.mono {s s' : Scene} {paths paths' : List String} (h : s.Keeps s' paths)
    (hsub : paths' ⊆ paths) : s.Keeps s' paths' :=
  { h with lookup := fun p hp => h.lookup p (hsub hp) }

/-! ## Verdicts that stay -/

namespace Verdict.Stays

variable {v w : Verdict}

theorem neg (h : v.Stays w) : v.neg.Stays w.neg := by
  rcases h with rfl | rfl
  · exact .of_undecided
  · exact .refl _

theorem value? (h : v.Stays w) {value : Json} (hvalue : v.value? = some value) :
    w.value? = some value := by
  rcases h with rfl | rfl
  · cases hvalue
  · exact hvalue

end Verdict.Stays

/-! ## Values that survive -/

namespace Expr

/-- Among some expressions nothing stands in for missing data, and what each of them reads itself is
kept. -/
structure Kept (v : Vocabulary) (s s' : Scene) (es : List Expr) : Prop where
  plain : ∀ t ∈ es, t.standsIn = false
  keeps : ∀ t ∈ es, s.Keeps s' (t.ownPaths v)

theorem Kept.mono {v : Vocabulary} {s s' : Scene} {es es' : List Expr} (h : Kept v s s' es)
    (hsub : es' ⊆ es) : Kept v s s' es' :=
  ⟨fun t ht => h.plain t (hsub ht), fun t ht => h.keeps t (hsub ht)⟩

/-- An expression keeps its value from one scene to another, if it has one. -/
def Survives (v : Vocabulary) (cs : Combiners) (s s' : Scene) (e : Expr) : Prop :=
  ∀ value, eval v cs s e = some value → eval v cs s' e = some value

variable {v : Vocabulary} {cs : Combiners} {s s' : Scene}

theorem Survives.decide {e : Expr} (h : Survives v cs s s' e) {truth : Bool}
    (hdecide : e.decide v cs s = some truth) : e.decide v cs s' = some truth := by
  obtain ⟨value, hvalue, htruth⟩ := Option.map_eq_some_iff.mp hdecide
  rw [Expr.decide, h value hvalue, Option.map_some, htruth]

/-- The verdict of what survives stays: it was undecided, or it is the same. -/
theorem Survives.verdict_stays {e : Expr} (h : Survives v cs s s' e) :
    (e.verdict v cs s).Stays (e.verdict v cs s') := by
  unfold verdict
  cases hdecide : e.decide v cs s with
  | none => exact .of_undecided
  | some truth =>
    rw [h.decide hdecide]
    exact .refl _

theorem eq_none_of_standsIn {default : Option Json} (h : default.isSome = false) : default = none :=
  Option.not_isSome_iff_eq_none.mp (Bool.eq_false_iff.mp h)

/-- A bit survives with the word that it is read from. -/
theorem bitAt?_survives {target : String × Nat} (h : s.Keeps s' [target.1]) {value : Json}
    (hvalue : bitAt? s target = some value) : bitAt? s' target = some value := by
  obtain ⟨word, hword, rfl⟩ := Option.map_eq_some_iff.mp hvalue
  obtain ⟨found, hfound, hword⟩ := Option.bind_eq_some_iff.mp hword
  have hkept := h.lookup target.1 (List.mem_singleton_self _) found hfound
  rw [bitAt?, Scene.flagWord?, hkept, Option.bind_some, hword]
  rfl

theorem eventValue?_survives {name : String} {field category : Option String}
    (h : s.Keeps s' field.toList) {value : Json}
    (hvalue : eventValue? v s name field category = some value) :
    eventValue? v s' name field category = some value := by
  obtain ⟨event, hevent, hvalue⟩ := Option.bind_eq_some_iff.mp hvalue
  unfold eventValue?
  rw [h.event event hevent]
  show (if matchesEvent v name category event then _ else none) = some value
  split at hvalue
  · next hmatches =>
    rw [if_pos hmatches]
    cases field with
    | none => exact hvalue
    | some p => exact h.lookup p (List.mem_singleton_self _) value hvalue
  · cases hvalue

mutual

/-- An expression survives if nothing inside it stands in for missing data, and what it reads is
kept. -/
theorem survives : ∀ e : Expr, Kept v s s' e.subterms → Survives v cs s s' e
  | .path p default, h, value, hvalue => by
    obtain rfl := eq_none_of_standsIn (h.plain _ (self_mem_subterms _))
    simp only [eval, Option.or_none] at hvalue ⊢
    exact (h.keeps _ (self_mem_subterms _)).lookup p (List.mem_singleton_self _) value hvalue
  | .bitfield p group bit default, h, value, hvalue => by
    obtain rfl := eq_none_of_standsIn (h.plain _ (self_mem_subterms _))
    have hkeeps := h.keeps _ (self_mem_subterms _)
    simp only [eval, Option.or_none, ownPaths] at hvalue hkeeps ⊢
    cases htarget : bitTarget? v p group bit with
    | none => rw [htarget] at hvalue; cases hvalue
    | some target =>
      rw [htarget] at hvalue hkeeps
      exact bitAt?_survives hkeeps hvalue
  | .event name field category default, h, value, hvalue => by
    obtain rfl := eq_none_of_standsIn (h.plain _ (self_mem_subterms _))
    simp only [eval, Option.or_none] at hvalue ⊢
    exact eventValue?_survives (h.keeps _ (self_mem_subterms _)) hvalue
  | .recent name bound, h, value, hvalue => by
    have hkeeps := h.keeps _ (self_mem_subterms _)
    simp only [eval] at hvalue ⊢
    rw [hkeeps.recency, hkeeps.now]
    exact hvalue
  | .literal _, _, value, hvalue => by
    simpa only [eval] using hvalue
  | .map input table default, h, value, hvalue => by
    obtain rfl := eq_none_of_standsIn (h.plain _ (self_mem_subterms _))
    rw [subterms] at h
    simp only [eval, Option.or_none] at hvalue ⊢
    obtain ⟨key, hkey, hvalue⟩ := Option.bind_eq_some_iff.mp hvalue
    obtain ⟨found, hfound, hkey⟩ := Option.bind_eq_some_iff.mp hkey
    have hinput := survives input (h.mono (List.subset_cons_self _ _)) found hfound
    rw [hinput, Option.bind_some, hkey]
    exact hvalue
  | .compare input comparison other, h, value, hvalue => by
    rw [subterms] at h
    simp only [eval] at hvalue ⊢
    obtain ⟨truth, htruth, hvalue⟩ := Option.map_eq_some_iff.mp hvalue
    obtain ⟨found, hfound, htruth⟩ := Option.bind_eq_some_iff.mp htruth
    have hinput := survives input (h.mono (List.subset_cons_self _ _)) found hfound
    rw [hinput, Option.bind_some, htruth, Option.map_some, hvalue]
  | .not term, h, value, hvalue => by
    rw [subterms] at h
    have hterm := (survives term (h.mono (List.subset_cons_self _ _))).verdict_stays
    rw [eval_not] at hvalue ⊢
    exact hterm.neg.value? hvalue
  | .firstMatch cases default, h, value, hvalue => by
    rw [subterms] at h
    simp only [eval] at hvalue ⊢
    exact evalCases_survives default cases (h.mono (List.subset_cons_self _ _)) value hvalue
  | .all terms, h, value, hvalue => by
    rw [subterms] at h
    rw [eval_all] at hvalue ⊢
    exact (Verdict.Stays.all (verdicts_stay terms (h.mono (List.subset_cons_self _ _)))).value? hvalue
  | .any terms, h, value, hvalue => by
    rw [subterms] at h
    rw [eval_any] at hvalue ⊢
    exact (Verdict.Stays.any (verdicts_stay terms (h.mono (List.subset_cons_self _ _)))).value? hvalue
  | .combine combiner inputs, h, _, _ => by
    cases h.plain _ (self_mem_subterms _)

/-- The cases of a first match are gone through in order: as long as each was decided to be false
before, it is so now. -/
theorem evalCases_survives (default : Option Json) : ∀ cases : List (Expr × Json),
    Kept v s s' (subtermsOfCases cases) → ∀ value, evalCases v cs s default cases = some value →
      evalCases v cs s' default cases = some value
  | [], _, value, hvalue => by simpa only [evalCases] using hvalue
  | (condition, result) :: rest, h, value, hvalue => by
    rw [subtermsOfCases] at h
    have hcondition := survives condition (h.mono (List.subset_append_left _ _))
    rw [evalCases_cons] at hvalue ⊢
    cases hdecide : condition.decide v cs s with
    -- an undecided condition let nothing through, so there was no value to survive
    | none => rw [hdecide] at hvalue; cases hvalue
    | some truth =>
      rw [hdecide] at hvalue
      rw [hcondition.decide hdecide]
      cases truth with
      | true => exact hvalue
      | false =>
        exact evalCases_survives default rest (h.mono (List.subset_append_right _ _)) value hvalue

theorem verdicts_stay : ∀ terms : List Expr, Kept v s s' (subtermsOfTerms terms) →
    List.Forall₂ Verdict.Stays (terms.map (verdict v cs s)) (terms.map (verdict v cs s'))
  | [], _ => .nil
  | t :: rest, h => by
    rw [subtermsOfTerms] at h
    exact .cons (survives t (h.mono (List.subset_append_left _ _))).verdict_stays
      (verdicts_stay rest (h.mono (List.subset_append_right _ _)))

end

/-- **A value survives more data.** Let no operation inside an expression put something in the place
of what it does not find. If the expression has a value on a scene, it has the same value on every
scene of the same times that has at least the data of the first at the paths that are read, and the
event of the first if it has one. -/
theorem eval_survives {e : Expr} (hplain : ∀ t ∈ e.subterms, t.standsIn = false)
    (hkeeps : s.Keeps s' (e.paths v)) {value : Json} (hvalue : eval v cs s e = some value) :
    eval v cs s' e = some value := by
  have hkept : Kept v s s' e.subterms :=
    ⟨hplain, fun t ht => hkeeps.mono fun p hp => List.mem_flatMap.mpr ⟨t, ht, hp⟩⟩
  exact survives e hkept value hvalue

/-- Whether a ship has just docked, is ready to go, or is idle. -/
def stance : Expr :=
  .firstMatch [(.all [.path "Docked" none, .recent "Docked" (.finite (.ofInt 3))], .string "docked"),
    (.any [.path "Shields" none, .compare (.path "Fuel" none) .gt (.number .zero)],
      .string "ready")] (some (.string "idle"))

/-- The first case is false without its second term, and the second one true without its first. -/
theorem eval_survives_stance :
    let s := Scene.polled [("Docked", .bool false), ("Fuel", .number .one)]
    let s' := Scene.polled [("Docked", .bool false), ("Fuel", .number .one), ("Shields", .bool true)]
    stance.paths ⟨[], []⟩ = ["Docked", "Shields", "Fuel"] ∧
    s.lookup "Shields" = none ∧ s.Keeps s' (stance.paths ⟨[], []⟩) ∧
    (∀ t ∈ stance.subterms, t.standsIn = false) ∧
    eval ⟨[], []⟩ .absent s stance = some (.string "ready") ∧
    eval ⟨[], []⟩ .absent s' stance = some (.string "ready") := by
  intro s s'
  have hpaths : stance.paths ⟨[], []⟩ = ["Docked", "Shields", "Fuel"] := rfl
  have hshields : s.lookup "Shields" = none := rfl
  have hplain : ∀ t ∈ stance.subterms, t.standsIn = false := by decide
  have hkeeps : s.Keeps s' (stance.paths ⟨[], []⟩) := by
    refine ⟨fun p hp value hvalue => ?_, nofun, rfl, rfl⟩
    rw [hpaths, List.mem_cons, List.mem_cons, List.mem_singleton] at hp
    rcases hp with rfl | rfl | rfl
    · exact hvalue
    · cases hshields.symm.trans hvalue
    · exact hvalue
  have hfirst : decide ⟨[], []⟩ .absent s (.all [.path "Docked" none,
      .recent "Docked" (.finite (.ofInt 3))]) = some false := by decide +kernel
  have hsecond : decide ⟨[], []⟩ .absent s (.any [.path "Shields" none,
      .compare (.path "Fuel" none) .gt (.number .zero)]) = some true := by decide +kernel
  have hvalue : eval ⟨[], []⟩ .absent s stance = some (.string "ready") := by
    simp only [stance, eval]
    rw [evalCases_cons, hfirst]
    show evalCases _ _ s _ _ = _
    rw [evalCases_cons, hsecond]
  exact ⟨hpaths, hshields, hkeeps, hplain, hvalue, eval_survives hplain hkeeps hvalue⟩

end Expr

end Telltale
