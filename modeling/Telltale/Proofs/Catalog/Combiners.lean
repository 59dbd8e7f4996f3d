import Telltale.Proofs.Catalog.Events
import Telltale.Proofs.Expr.Places
import Telltale.Proofs.Expr.Priority

/-!
# The combiners that a catalog relies on

A catalog is used with registered combiners, and every one that its expressions name has to be among
them. The names are collected by one walk through the expressions, the check is another one, and
evaluation is a third; all three come by the same places.

* `Catalog.mem_combinerNames` — the names that are collected are those that stand in the signals.
* `Expr.FirstMissing`, `Catalog.FirstMissing` — the first combiner that is not registered, by the
  order of the signals and of the places in an expression; `Catalog.missingCombiner?_eq_some_iff`
  says that the check finds it.
* `Expr.eval_congr_combiners` — evaluation asks for no other combiners than those that stand in the
  expression.
* `combiners_checked` — so a catalog is refused exactly for a combiner that is missing, and once it
  is accepted, combiners that it does not name make no difference.
-/

namespace Telltale

variable {cs cs' : Combiners}

namespace Expr

/-! ## Missing combiners of an expression -/

/-- All combiners that are named in an expression, at any depth, are registered. -/
def Served (cs : Combiners) (e : Expr) : Prop :=
  ∀ name inputs, Inside (.combine name inputs) e → cs name ≠ none

/-- A name is the first one in an expression, parents first, of an unregistered combiner. -/
def FirstMissing (cs : Combiners) (e : Expr) (name : String) : Prop :=
  ∃ place inputs, e.at? place = some (.combine name inputs) ∧ cs name = none ∧
    ∀ earlier < place, ∀ other inputs', e.at? earlier = some (.combine other inputs') →
      cs other ≠ none

/-- The combiner that an expression names itself, if it is not registered. -/
def missing? (cs : Combiners) (e : Expr) : Option String :=
  (Catalog.combinerOf? e).filter fun name => (cs name).isNone

theorem missing?_eq_some_iff {e : Expr} {name : String} :
    e.missing? cs = some name ↔ (∃ inputs, e = .combine name inputs) ∧ cs name = none := by
  cases e <;> simp [missing?, Catalog.combinerOf?]

theorem missing?_eq_none_iff {e : Expr} :
    e.missing? cs = none ↔ ∀ name inputs, e = .combine name inputs → cs name ≠ none := by
  rw [Option.eq_none_iff_forall_not_mem]
  simp only [Option.mem_def, missing?_eq_some_iff, not_and, forall_exists_index, ne_eq]

theorem findSome?_missing?_eq_none_iff {e : Expr} :
    e.subterms.findSome? (missing? cs) = none ↔ e.Served cs := by
  rw [List.findSome?_eq_none_iff]
  simp only [missing?_eq_none_iff, mem_subterms_iff_inside]
  constructor
  · exact fun h name inputs hinside => h _ hinside name inputs rfl
  · rintro h t hinside name inputs rfl
    exact h name inputs hinside

/-- The walk through an expression stops at the first missing combiner. -/
theorem findSome?_missing?_eq_some_iff {e : Expr} {name : String} :
    e.subterms.findSome? (missing? cs) = some name ↔ e.FirstMissing cs name := by
  rw [findSome?_subterms_eq_some_iff]
  simp only [missing?_eq_some_iff, missing?_eq_none_iff]
  constructor
  · rintro ⟨place, t, ht, ⟨⟨inputs, rfl⟩, hmissing⟩, hfirst⟩
    exact ⟨place, inputs, ht, hmissing, fun earlier hlt other inputs' hother =>
      hfirst earlier hlt _ hother other inputs' rfl⟩
  · rintro ⟨place, inputs, ht, hmissing, hfirst⟩
    refine ⟨place, _, ht, ⟨⟨inputs, rfl⟩, hmissing⟩, ?_⟩
    rintro earlier hlt t' ht' other inputs' rfl
    exact hfirst earlier hlt other inputs' ht'

/-! ## Evaluation -/

variable {v : Vocabulary} {s : Scene}

theorem evalEach_eq_map (es : List Expr) : evalEach v cs s es = es.map (eval v cs s) := by
  induction es with
  | nil => rfl
  | cons e rest ih => rw [evalEach, ih, List.map_cons]

theorem verdict_congr_combiners {e : Expr} (h : e.eval v cs s = e.eval v cs' s) :
    e.verdict v cs s = e.verdict v cs' s := by
  rw [verdict, verdict, decide, decide, h]

/-- An expression has the same value with any other combiners, as long as those that are named in
it are the same. -/
theorem eval_congr_combiners {e : Expr}
    (h : ∀ name inputs, Inside (.combine name inputs) e → cs name = cs' name) :
    e.eval v cs s = e.eval v cs' s := by
  induction e using induction_on_children with
  | h e ih =>
    have hchild : ∀ c ∈ e.children, c.eval v cs s = c.eval v cs' s := fun c hc =>
      ih c hc fun name inputs hinside => h name inputs (inside_of_mem_children hc hinside)
    have hverdicts : e.children.map (verdict v cs s) = e.children.map (verdict v cs' s) :=
      List.map_congr_left fun c hc => verdict_congr_combiners (hchild c hc)
    cases e with
    | path | bitfield | event | recent | literal => simp only [eval]
    | map input => simp only [eval, hchild input (List.mem_singleton_self _)]
    | compare input => simp only [eval, hchild input (List.mem_singleton_self _)]
    | not term => simp only [eval, hchild term (List.mem_singleton_self _)]
    | firstMatch cases default =>
      rw [eval_firstMatch, eval_firstMatch, choice, choice]
      exact congrArg (fun vs => (Choice.ofVerdicts vs).value? _ default) hverdicts
    | all terms =>
      rw [eval_all, eval_all]
      exact congrArg (fun vs => (Verdict.all vs).value?) hverdicts
    | any terms =>
      rw [eval_any, eval_any]
      exact congrArg (fun vs => (Verdict.any vs).value?) hverdicts
    | combine name inputs =>
      have hinputs : inputs.map (eval v cs s) = inputs.map (eval v cs' s) :=
        List.map_congr_left hchild
      simp only [eval, evalEach_eq_map, hinputs, h name inputs .self]

end Expr

/-! ## Missing combiners of a catalog -/

namespace Catalog

variable {c : Catalog}

/-- The names of combiners that a catalog collects are those that stand in its signals, at any
depth. -/
theorem mem_combinerNames {name : String} :
    name ∈ c.combinerNames ↔
      ∃ s ∈ c.signals, ∃ inputs, Expr.Inside (.combine name inputs) s.expr := by
  have hname (e : Expr) : combinerOf? e = some name ↔ ∃ inputs, e = .combine name inputs := by
    cases e <;> simp [combinerOf?]
  simp only [combinerNames, Names.mem_ofList, List.mem_filterMap, Prod.exists, mem_subterms, hname,
    Expr.mem_subterms_iff_inside]
  constructor
  · rintro ⟨-, e, ⟨s, hs, rfl, hinside⟩, inputs, rfl⟩
    exact ⟨s, hs, inputs, hinside⟩
  · rintro ⟨s, hs, inputs, hinside⟩
    exact ⟨s.id, _, ⟨s, hs, rfl, hinside⟩, inputs, rfl⟩

/-- A signal is the first one of a catalog in which a combiner is named that is not registered, and
a name is the first one of such a combiner in it. -/
def FirstMissing (c : Catalog) (cs : Combiners) (s : Signal) (name : String) : Prop :=
  ∃ before after, c.signals = before ++ s :: after ∧ (∀ s' ∈ before, s'.expr.Served cs) ∧
    s.expr.FirstMissing cs name

/-- What an expression of a signal adds to the check. -/
theorem bind_combinerOf? (id : String) (e : Expr) :
    ((combinerOf? e).bind fun name =>
        if (cs name).isNone then some (MissingCombiner.mk id name) else none) =
      (e.missing? cs).map (MissingCombiner.mk id) := by
  rw [Expr.missing?]
  cases combinerOf? e with
  | none => rfl
  | some name => cases hname : cs name <;> simp [hname]

/-- The check walks through the signals one by one. -/
theorem missingCombiner?_eq_findSome? (c : Catalog) (cs : Combiners) :
    c.missingCombiner? cs = c.signals.findSome? fun s =>
      (s.expr.subterms.findSome? (Expr.missing? cs)).map (MissingCombiner.mk s.id) := by
  have hcheck : c.missingCombiner? cs =
      c.subterms.findSome? fun p => (p.2.missing? cs).map (MissingCombiner.mk p.1) :=
    congrArg c.subterms.findSome? (funext fun p => bind_combinerOf? p.1 p.2)
  have hsignal (s : Signal) :
      (s.expr.subterms.map fun e => (s.id, e)).findSome?
          (fun p => (p.2.missing? cs).map (MissingCombiner.mk p.1)) =
        (s.expr.subterms.findSome? (Expr.missing? cs)).map (MissingCombiner.mk s.id) := by
    rw [List.findSome?_map, List.map_findSome?]
    rfl
  rw [hcheck, subterms, findSome?_flatMap]
  exact congrArg c.signals.findSome? (funext hsignal)

theorem missingCombiner?_eq_none_iff :
    c.missingCombiner? cs = none ↔ ∀ s ∈ c.signals, s.expr.Served cs := by
  rw [missingCombiner?_eq_findSome?, List.findSome?_eq_none_iff]
  simp only [Option.map_eq_none_iff, Expr.findSome?_missing?_eq_none_iff]

/-- The check finds the first missing combiner of the first signal with one. -/
theorem missingCombiner?_eq_some_iff {m : MissingCombiner} :
    c.missingCombiner? cs = some m ↔ ∃ s, s.id = m.signal ∧ c.FirstMissing cs s m.combiner := by
  rw [missingCombiner?_eq_findSome?, List.findSome?_eq_some_iff]
  simp only [Option.map_eq_none_iff, Option.map_eq_some_iff, Expr.findSome?_missing?_eq_none_iff,
    Expr.findSome?_missing?_eq_some_iff]
  constructor
  · rintro ⟨before, s, after, hsignals, ⟨name, hname, rfl⟩, hbefore⟩
    exact ⟨s, rfl, before, after, hsignals, hbefore, hname⟩
  · rintro ⟨s, hid, before, after, hsignals, hbefore, hname⟩
    refine ⟨before, s, after, hsignals, ⟨m.combiner, hname, ?_⟩, hbefore⟩
    rw [hid]

/-- Where all names of a catalog are registered, all its signals are served. -/
theorem served_iff :
    (∀ s ∈ c.signals, s.expr.Served cs) ↔ ∀ name ∈ c.combinerNames, cs name ≠ none := by
  simp only [mem_combinerNames]
  constructor
  · rintro h name ⟨s, hs, inputs, hinside⟩
    exact h s hs name inputs hinside
  · exact fun h s hs name inputs hinside => h name ⟨s, hs, inputs, hinside⟩

end Catalog

namespace Deriver

variable {c : Catalog}

/-- A catalog is accepted with combiners if all that it names are registered. -/
theorem build_eq_ok_iff :
    build c cs = .ok ⟨c, cs⟩ ↔ ∀ name ∈ c.combinerNames, cs name ≠ none := by
  rw [← Catalog.served_iff, ← Catalog.missingCombiner?_eq_none_iff, build]
  cases c.missingCombiner? cs <;> simp

theorem build_eq_error_iff {m : MissingCombiner} :
    build c cs = .error m ↔ c.missingCombiner? cs = some m := by
  rw [build]
  cases c.missingCombiner? cs <;> simp

/-- What comes of the signals depends on the combiners that the catalog names. -/
theorem read_congr_combiners (h : ∀ name ∈ c.combinerNames, cs name = cs' name) {s : Signal}
    (hs : s ∈ c.signals) (scene : Scene) :
    (Deriver.mk c cs).read scene s = (Deriver.mk c cs').read scene s := by
  have heval : s.expr.eval c.vocabulary cs scene = s.expr.eval c.vocabulary cs' scene :=
    Expr.eval_congr_combiners fun name inputs hinside =>
      h name (Catalog.mem_combinerNames.mpr ⟨s, hs, inputs, hinside⟩)
  unfold read Signal.read
  rw [heval]

theorem derive_congr_combiners (h : ∀ name ∈ c.combinerNames, cs name = cs' name) (scene : Scene) :
    derive ⟨c, cs⟩ scene = derive ⟨c, cs'⟩ scene := by
  have hreadings : c.signals.map (fun s => (s, read ⟨c, cs⟩ scene s)) =
      c.signals.map fun s => (s, read ⟨c, cs'⟩ scene s) :=
    List.map_congr_left fun s hs => by rw [read_congr_combiners h hs]
  unfold derive
  rw [hreadings]

theorem deriveOne?_congr_combiners (h : ∀ name ∈ c.combinerNames, cs name = cs' name)
    (scene : Scene) (id : String) :
    deriveOne? ⟨c, cs⟩ scene id = deriveOne? ⟨c, cs'⟩ scene id := by
  unfold deriveOne?
  cases hs : c.get? id with
  | none => rfl
  | some s =>
    have hread := read_congr_combiners h (List.mem_of_find?_eq_some hs) scene
    rw [Option.map_some, Option.map_some, hread]

end Deriver

/-- **Combiners are checked exactly.** An accepted catalog is used with registered combiners if all
names that it collects are among them, which are those that stand in its signals at any depth.
Otherwise it is refused for the first signal in which a combiner is missing, and for the first one
that is missing there. Once it is in use, other combiners make no difference to what is derived,
where they are further ones or ones that the catalog does not name. -/
theorem combiners_checked {c : Catalog} (hc : c.Accepted) (cs : Combiners) :
    (Deriver.build c cs = .ok ⟨c, cs⟩ ↔ ∀ name ∈ c.combinerNames, cs name ≠ none) ∧
    (∀ name, name ∈ c.combinerNames ↔
      ∃ s ∈ c.signals, ∃ inputs, Expr.Inside (.combine name inputs) s.expr) ∧
    ((∃ name ∈ c.combinerNames, cs name = none) →
      ∃ m s, Deriver.build c cs = .error m ∧ c.get? m.signal = some s ∧
        c.FirstMissing cs s m.combiner) ∧
    (Deriver.build c cs = .ok ⟨c, cs⟩ → ∀ cs' : Combiners,
      (∀ name, cs' name = cs name ∨ cs name = none ∨ name ∉ c.combinerNames) →
      Deriver.build c cs' = .ok ⟨c, cs'⟩ ∧
      ∀ scene, Deriver.derive ⟨c, cs'⟩ scene = Deriver.derive ⟨c, cs⟩ scene ∧
        ∀ id, Deriver.deriveOne? ⟨c, cs'⟩ scene id = Deriver.deriveOne? ⟨c, cs⟩ scene id) := by
  refine ⟨Deriver.build_eq_ok_iff, fun name => Catalog.mem_combinerNames, ?_, ?_⟩
  · rintro ⟨name, hname, hnone⟩
    cases hmissing : c.missingCombiner? cs with
    | none =>
      rw [Catalog.missingCombiner?_eq_none_iff, Catalog.served_iff] at hmissing
      exact absurd hnone (hmissing name hname)
    | some m =>
      obtain ⟨s, hid, hfirst⟩ := Catalog.missingCombiner?_eq_some_iff.mp hmissing
      have hs : s ∈ c.signals := by
        obtain ⟨before, after, hsignals, -⟩ := hfirst
        simp [hsignals]
      exact ⟨m, s, Deriver.build_eq_error_iff.mpr hmissing, hid ▸ hc.get?_of_mem hs, hfirst⟩
  · intro hbuild cs' hother
    have hall := Deriver.build_eq_ok_iff.mp hbuild
    -- a name of the catalog is registered, so it is neither a further one nor one left out
    have hsame : ∀ name ∈ c.combinerNames, cs' name = cs name := by
      intro name hname
      rcases hother name with h | h | h
      · exact h
      · exact absurd h (hall name hname)
      · exact absurd hname h
    refine ⟨Deriver.build_eq_ok_iff.mpr fun name hname => ?_, fun scene => ⟨?_, fun id => ?_⟩⟩
    · rw [hsame name hname]
      exact hall name hname
    · exact Deriver.derive_congr_combiners hsame scene
    · exact Deriver.deriveOne?_congr_combiners hsame scene id

/-- A catalog of two signals, one of which names three combiners inside one another. -/
def mill : Catalog where
  version := 1
  vocabulary := ⟨[], []⟩
  signals := [
    { id := "grain"
      type := .number
      values := []
      default := none
      description := none
      expr := .combine "sum" [.path "sacks" none] },
    { id := "grinding"
      type := .bool
      values := []
      default := none
      description := none
      expr := .any [.not (.combine "sum" [.combine "max" [.combine "mean" []]]),
        .combine "min" [.path "sacks" none]] }]

/-- The standard combiners, and three more. -/
def millstones : Combiners := fun name =>
  if name = "max" ∨ name = "mean" ∨ name = "min" then some Combiner.first
  else Combiners.standard name

theorem combiners_checked_mill :
    mill.Accepted ∧ mill.combinerNames = ["max", "mean", "min", "sum"] ∧
    (∃ m s, Deriver.build mill .standard = .error m ∧ m.signal = "grinding" ∧ m.combiner = "max" ∧
      mill.get? m.signal = some s ∧ mill.FirstMissing .standard s m.combiner) ∧
    Deriver.build mill millstones = .ok ⟨mill, millstones⟩ ∧
    ∀ further : Combiner, ∀ scene,
      let cs' : Combiners := fun name =>
        if name = "list" ∨ name = "mode" then some further else millstones name
      Deriver.build mill cs' = .ok ⟨mill, cs'⟩ ∧
      Deriver.derive ⟨mill, cs'⟩ scene = Deriver.derive ⟨mill, millstones⟩ scene := by
  have hfault : mill.fault?.isNone = true := by decide +kernel
  have hc : mill.Accepted := Option.isNone_iff_eq_none.mp hfault
  have hnames : mill.combinerNames = ["max", "mean", "min", "sum"] := by decide +kernel
  obtain ⟨-, -, hrefused, -⟩ := combiners_checked hc .standard
  obtain ⟨m, s, herror, hs, hfirst⟩ := hrefused ⟨"max", by rw [hnames]; decide, rfl⟩
  obtain ⟨haccepted, -, -, hunseen⟩ := combiners_checked hc millstones
  have hbuild : Deriver.build mill millstones = .ok ⟨mill, millstones⟩ := by
    refine haccepted.mpr ?_
    rw [hnames]
    decide
  have hm : (mill.missingCombiner? .standard).all fun m =>
      decide (m.signal = "grinding") && decide (m.combiner = "max") := by decide +kernel
  rw [Deriver.build_eq_error_iff.mp herror] at hm
  simp only [Option.all_some, Bool.and_eq_true, decide_eq_true_eq] at hm
  refine ⟨hc, hnames, ⟨m, s, herror, hm.1, hm.2, hs, hfirst⟩, hbuild, fun further scene => ?_⟩
  intro cs'
  have hother : ∀ name, cs' name = millstones name ∨ millstones name = none ∨
      name ∉ mill.combinerNames := by
    intro name
    by_cases hname : name = "list" ∨ name = "mode"
    · rw [hnames]
      rcases hname with rfl | rfl <;> exact .inr (.inr (by decide))
    · exact .inl (if_neg hname)
  obtain ⟨hbuild', hderive⟩ := hunseen hbuild cs' hother
  exact ⟨hbuild', (hderive scene).1⟩

end Telltale
