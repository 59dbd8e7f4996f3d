import Telltale.Proofs.Expr.Outputs
import Telltale.Proofs.Snapshot.ClosedWorld

/-!
# What diagnostics are about

A signal that cannot take the value of its expression is told of by a diagnostic. The checks of a
catalog rule that out for every literal that an expression can hand back, so what remains are values
that came from the frame, from the documents beside it or from a combiner.

* `mem_diagnostics` — the diagnostics of a scene are those of the signals that are refused on it.
* `Catalog.Accepted.conform_literal` — the literals of an expression conform to its signal.
* `diagnostics_quote_fetched` — the value of an expression is a literal of it or fetched, and a
  diagnostic quotes a fetched value that is no literal of the signal's expression.
-/

namespace Telltale

/-- The signal that a diagnostic is about. -/
def Diagnostic.signal : Diagnostic → String
  | .undeclared signal _ => signal
  | .wrongType signal _ _ => signal

/-- The value that a diagnostic quotes. -/
def Diagnostic.value : Diagnostic → Json
  | .undeclared _ value => value
  | .wrongType _ _ value => value

/-! ## Refused values -/

theorem Signal.of_accept_refused {s : Signal} {raw : Json} {diagnostic : Diagnostic}
    (h : s.accept raw = .refused diagnostic) :
    diagnostic.signal = s.id ∧ diagnostic.value = raw ∧ ¬ ∃ w, s.conform raw = .accepted w := by
  unfold Signal.accept at h
  rcases Signal.conform_cases s raw with ⟨w, hw⟩ | hw | hw
  · rw [hw] at h
    cases h
  · rw [hw] at h
    cases h
    exact ⟨rfl, rfl, by simp [hw]⟩
  · rw [hw] at h
    cases h
    exact ⟨rfl, rfl, by simp [hw]⟩

theorem of_read_refused {d : Deriver} {scene : Scene} {s : Signal} {diagnostic : Diagnostic}
    (h : d.read scene s = .refused diagnostic) :
    diagnostic.signal = s.id ∧
    s.expr.eval d.catalog.vocabulary d.combiners scene = some diagnostic.value ∧
    ¬ ∃ w, s.conform diagnostic.value = .accepted w := by
  unfold Deriver.read Signal.read at h
  split at h
  · next raw hraw =>
    obtain ⟨hsignal, rfl, hrefused⟩ := Signal.of_accept_refused h
    exact ⟨hsignal, hraw, hrefused⟩
  · cases h

/-- The diagnostics of a scene are those of the signals that are refused on it. -/
theorem mem_diagnostics {d : Deriver} {scene : Scene} {diagnostic : Diagnostic} :
    diagnostic ∈ (d.derive scene).diagnostics ↔
      ∃ s ∈ d.catalog.signals, d.read scene s = .refused diagnostic := by
  have hrefused (r : Reading) : r.diagnostic? = some diagnostic ↔ r = .refused diagnostic := by
    cases r <;> simp [Reading.diagnostic?]
  simp [Deriver.derive, List.filterMap_map, hrefused]

/-- The literals that the expression of a signal can hand back conform to it. -/
theorem Catalog.Accepted.conform_literal {c : Catalog} (hc : c.Accepted) {s : Signal}
    (hs : s ∈ c.signals) {v : Json} (hv : v ∈ s.expr.outputs.literals) :
    ∃ w, s.conform v = .accepted w := by
  obtain ⟨-, -, -, -, houtputs⟩ := Signal.checks_of_fault? (hc.fault?_eq_none hs)
  have hfault := List.findSome?_eq_none_iff.mp houtputs v hv
  unfold Signal.outputFault? at hfault
  split at hfault
  · next w hw => exact ⟨w, hw⟩
  · cases hfault
  · cases hfault

/-- A signal of an accepted catalog that is refused had a value that its expression fetched. -/
theorem fetched_of_refused {d : Deriver} (hc : d.catalog.Accepted) {scene : Scene} {s : Signal}
    (hs : s ∈ d.catalog.signals) {diagnostic : Diagnostic}
    (h : d.read scene s = .refused diagnostic) :
    diagnostic.value ∉ s.expr.outputs.literals ∧
    Expr.Fetched d.catalog.vocabulary d.combiners scene s.expr diagnostic.value := by
  obtain ⟨-, hvalue, hrefused⟩ := of_read_refused h
  have hliteral : diagnostic.value ∉ s.expr.outputs.literals :=
    fun hmem => hrefused (hc.conform_literal hs hmem)
  exact ⟨hliteral, (Expr.eval_mem_outputs hvalue).resolve_left hliteral⟩

/-! ## Diagnostics of accepted catalogs -/

/-- **Diagnostics quote fetched values.** Every value of an expression is one of its literals, or
was fetched by an expression that is not closed. So on every scene, an accepted catalog reports
nothing of a signal whose expression is closed, and everything that it reports is of a signal whose
expression reads a path, reads the event or combines, and quotes what that fetched, which is none
of the expression's literals. -/
theorem diagnostics_quote_fetched :
    (∀ v cs scene (e : Expr) value, e.eval v cs scene = some value →
      value ∈ e.outputs.literals ∨
        (e.outputs.closed = false ∧ Expr.Fetched v cs scene e value)) ∧
    ∀ c cs d, Catalog.Accepted c → Deriver.build c cs = .ok d → ∀ scene,
      (∀ s ∈ c.signals, s.expr.outputs.closed = true →
        ∀ diagnostic ∈ (d.derive scene).diagnostics, diagnostic.signal ≠ s.id) ∧
      ∀ diagnostic ∈ (d.derive scene).diagnostics, ∃ s ∈ c.signals, diagnostic.signal = s.id ∧
        s.expr.kind ∈ ["path", "journal_event", "combine"] ∧
        Expr.Fetched c.vocabulary cs scene s.expr diagnostic.value ∧
        diagnostic.value ∉ s.expr.outputs.literals := by
  refine ⟨fun v cs scene e value h => ?_, fun c cs d hc hd scene => ?_⟩
  · exact (Expr.eval_mem_outputs h).imp_right fun hfetched => ⟨hfetched.not_closed, hfetched⟩
  · rw [eq_of_build hd]
    constructor
    · intro s hs hclosed diagnostic hmem hsignal
      obtain ⟨s', hs', hread⟩ := mem_diagnostics.mp hmem
      -- identifiers differ, so the diagnostic can only be of the closed signal itself
      have hsame : s' = s :=
        hc.eq_of_id hs' hs ((of_read_refused hread).1.symm.trans hsignal)
      have hopen := (fetched_of_refused hc hs' hread).2.not_closed
      rw [hsame, hclosed] at hopen
      cases hopen
    · intro diagnostic hmem
      obtain ⟨s, hs, hread⟩ := mem_diagnostics.mp hmem
      obtain ⟨hliteral, hfetched⟩ := fetched_of_refused hc hs hread
      exact ⟨s, hs, (of_read_refused hread).1, hfetched.kind_mem, hfetched, hliteral⟩

/-- A catalog of two signals: the expression of the first reads a path, that of the second is
closed. -/
def gauges : Catalog where
  version := 1
  vocabulary := ⟨[], []⟩
  signals := [
    { id := "level"
      type := .enum
      values := [⟨.string "low", none⟩, ⟨.string "high", none⟩]
      default := none
      description := none
      expr := .path "level" none },
    { id := "armed"
      type := .bool
      values := []
      default := none
      description := none
      expr := .bitfield (some "flags") none (.index 0) none }]

/-- A scene whose frame has one field. -/
def Scene.telling (field : String) (value : Json) : Scene :=
  ⟨⟨.dashboard, none, ⟨0, 0⟩, .object [(field, value)]⟩, .absent, .empty, ⟨0, 0⟩⟩

theorem diagnostics_quote_fetched_gauges :
    let scene := Scene.telling "level" (.string "full")
    let d : Deriver := ⟨gauges, .absent⟩
    gauges.Accepted ∧ Deriver.build gauges .absent = .ok d ∧
    (∃ value, Expr.eval gauges.vocabulary .absent scene (.path "level" none) = some value ∧
      Expr.Fetched gauges.vocabulary .absent scene (.path "level" none) value) ∧
    (∀ diagnostic ∈ (d.derive scene).diagnostics, diagnostic.signal ≠ "armed") ∧
    ∃ diagnostic ∈ (d.derive scene).diagnostics, ∃ s ∈ gauges.signals,
      diagnostic.signal = s.id ∧ s.expr.kind ∈ ["path", "journal_event", "combine"] ∧
      Expr.Fetched gauges.vocabulary .absent scene s.expr diagnostic.value ∧
      diagnostic.value ∉ s.expr.outputs.literals := by
  intro scene d
  obtain ⟨hvalues, hdiagnostics⟩ := diagnostics_quote_fetched
  have hfault : gauges.fault?.isNone = true := by decide +kernel
  have haccepted : gauges.Accepted := Option.isNone_iff_eq_none.mp hfault
  have hbuild : Deriver.build gauges .absent = .ok d := rfl
  obtain ⟨hclosed, hopen⟩ := hdiagnostics gauges .absent d haccepted hbuild scene
  refine ⟨haccepted, hbuild, ?_, ?_, ?_⟩
  · have heval : (Expr.eval gauges.vocabulary .absent scene (.path "level" none)).isSome = true := by
      decide +kernel
    obtain ⟨value, hvalue⟩ := Option.isSome_iff_exists.mp heval
    exact ⟨value, hvalue, ((hvalues _ _ _ _ _ hvalue).resolve_left List.not_mem_nil).2⟩
  · exact hclosed _ (List.mem_cons_of_mem _ List.mem_cons_self) rfl
  · have hsome : (d.derive scene).diagnostics.head?.isSome = true := by decide +kernel
    obtain ⟨diagnostic, hhead⟩ := Option.isSome_iff_exists.mp hsome
    have hmem := List.mem_of_mem_head? (Option.mem_def.mpr hhead)
    exact ⟨diagnostic, hmem, hopen diagnostic hmem⟩

end Telltale
