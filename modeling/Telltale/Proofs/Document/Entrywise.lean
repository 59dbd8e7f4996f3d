import Mathlib.Data.List.Perm.Basic
import Telltale.Proofs.Rule.Loaded

/-!
# Documents are taken entry by entry

A document of rules is refused as a whole if one entry is bad, and the loop that finds out carries
the identifiers that it has seen. So has the loop over the signals of a catalog. What becomes of an
entry still does not depend on the others, except that its identifier has to be new.

* `Entrywise` — what that means of a load: which documents it accepts, what it makes of them, and
  which entry it blames for a refusal.
* `Entrywise.of_loop` — a load is entrywise if it stops at the first entry to blame.
* `RuleEntry.entrywise`, `Catalog.entrywise` — the loads of rules and of signals are.
* `documents_entrywise` — the same for the texts of documents.
-/

namespace Telltale

open Yaml (Node)

/-! ## Loads -/

/-- A load accepts a document if it accepts each entry on its own, and no two results have one
identifier. The results are those of the entries, in their order. -/
def AcceptsEach (load : List α → Except ε (List β)) (id : β → String) : Prop :=
  ∀ entries results, load entries = .ok results ↔
    List.Forall₂ (fun e r => load [e] = .ok [r]) entries results ∧ (results.map id).Nodup

/-- A load takes documents entry by entry. Its results are told apart by `id`, and
`Blames n earlier e fault` means that `fault` is about the entry `e`, which has `n` entries before
it, whose identifiers are `earlier`. -/
structure Entrywise (load : List α → Except ε (List β)) (id : β → String)
    (Blames : Nat → List String → α → ε → Prop) : Prop where
  accepted : AcceptsEach load id
  /-- The entries of an accepted document may come in any order. Each keeps its result. -/
  permuted : ∀ entries entries' results, load entries = .ok results → entries'.Perm entries →
    ∃ results', load entries' = .ok results' ∧ (entries'.zip results').Perm (entries.zip results)
  /-- Any entries of an accepted document may be left out. The others keep their results. -/
  shortened : ∀ entries entries' results, load entries = .ok results → entries'.Sublist entries →
    ∃ results', load entries' = .ok results' ∧
      (entries'.zip results').Sublist (entries.zip results)
  /-- A refusal is about the first entry to blame: those before it are accepted. -/
  refused : ∀ entries fault, load entries = .error fault ↔
    ∃ before e after results, entries = before ++ e :: after ∧ load before = .ok results ∧
      Blames before.length (results.map id) e fault

section Loads

variable {load : List α → Except ε (List β)} {id : β → String}
  {Blames : Nat → List String → α → ε → Prop}

namespace AcceptsEach

/-- Of entries with their results, the entries are accepted with these results if each is, and the
identifiers differ. -/
theorem pairs (h : AcceptsEach load id) (pairs : List (α × β)) :
    load (pairs.map Prod.fst) = .ok (pairs.map Prod.snd) ↔
      (∀ p ∈ pairs, load [p.1] = .ok [p.2]) ∧ (pairs.map fun p => id p.2).Nodup := by
  rw [h, List.forall₂_map_left_iff, List.forall₂_map_right_iff, List.forall₂_same, List.map_map]
  rfl

/-- An accepted document is one of entries with their results. -/
theorem exists_pairs (h : AcceptsEach load id) {entries : List α} {results : List β}
    (hload : load entries = .ok results) :
    ((entries.zip results).map Prod.fst = entries ∧ (entries.zip results).map Prod.snd = results) ∧
    (∀ p ∈ entries.zip results, load [p.1] = .ok [p.2]) ∧
    ((entries.zip results).map fun p => id p.2).Nodup := by
  have hlength : entries.length = results.length := ((h entries results).mp hload).1.length_eq
  have hfst : (entries.zip results).map Prod.fst = entries :=
    List.map_fst_zip (Nat.le_of_eq hlength)
  have hsnd : (entries.zip results).map Prod.snd = results :=
    List.map_snd_zip (Nat.le_of_eq hlength.symm)
  refine ⟨⟨hfst, hsnd⟩, (h.pairs _).mp ?_⟩
  rw [hfst, hsnd, hload]

theorem permuted (h : AcceptsEach load id) {entries entries' : List α} {results : List β}
    (hload : load entries = .ok results) (hperm : entries'.Perm entries) :
    ∃ results', load entries' = .ok results' ∧
      (entries'.zip results').Perm (entries.zip results) := by
  obtain ⟨⟨hfst, -⟩, heach, hnodup⟩ := h.exists_pairs hload
  -- the order of the entries carries over to the entries with their results
  have hfirsts : List.Forall₂ (fun e p => e = p.1) entries (entries.zip results) := by
    rw [← List.forall₂_map_right_iff, hfst, List.forall₂_eq_eq_eq]
  obtain ⟨pairs, hpairs, hperm⟩ := List.perm_comp_forall₂ hperm hfirsts
  rw [← List.forall₂_map_right_iff, List.forall₂_eq_eq_eq] at hpairs
  refine ⟨pairs.map Prod.snd, ?_, ?_⟩
  · rw [hpairs]
    exact (h.pairs _).mpr ⟨fun p hp => heach p (hperm.mem_iff.mp hp),
      (hperm.map _).nodup_iff.mpr hnodup⟩
  · rw [← List.zip_of_prod hpairs.symm rfl]
    exact hperm

theorem shortened (h : AcceptsEach load id) {entries entries' : List α} {results : List β}
    (hload : load entries = .ok results) (hsublist : entries'.Sublist entries) :
    ∃ results', load entries' = .ok results' ∧
      (entries'.zip results').Sublist (entries.zip results) := by
  obtain ⟨⟨hfst, -⟩, heach, hnodup⟩ := h.exists_pairs hload
  rw [← hfst, List.sublist_map_iff] at hsublist
  obtain ⟨pairs, hsublist, rfl⟩ := hsublist
  refine ⟨pairs.map Prod.snd, ?_, ?_⟩
  · exact (h.pairs _).mpr ⟨fun p hp => heach p (hsublist.subset hp),
      hnodup.sublist (hsublist.map _)⟩
  · rw [← List.zip_of_prod rfl rfl]
    exact hsublist

/-- One more entry is accepted if it is on its own, and its identifier is new. -/
theorem snoc (h : AcceptsEach load id) {before : List α} {results : List β} {e : α} {r : β}
    (hload : load before = .ok results) (he : load [e] = .ok [r]) (hr : id r ∉ results.map id) :
    load (before ++ [e]) = .ok (results ++ [r]) := by
  obtain ⟨heach, hnodup⟩ := (h before results).mp hload
  refine (h _ _).mpr ⟨List.rel_append heach (.cons he .nil), ?_⟩
  rw [List.map_append, List.map_singleton]
  exact List.nodup_append.mpr ⟨hnodup, List.nodup_singleton _, by simpa using hr⟩

end AcceptsEach

/-- A load is entrywise if it stops at the first entry to blame, and every other entry is accepted on
its own and has a new identifier. -/
theorem Entrywise.of_loop (haccepts : AcceptsEach load id) (hnil : load [] = .ok [])
    (hstops : ∀ before e after results fault, load before = .ok results →
      Blames before.length (results.map id) e fault → load (before ++ e :: after) = .error fault)
    (hblames : ∀ n earlier e, (∃ r, load [e] = .ok [r] ∧ id r ∉ earlier) ∨
      ∃ fault, Blames n earlier e fault) :
    Entrywise load id Blames := by
  refine ⟨haccepts, fun _ _ _ => haccepts.permuted, fun _ _ _ => haccepts.shortened, ?_⟩
  intro entries fault
  constructor
  -- the induction is on what is left, behind entries that were accepted
  · suffices hsearch : ∀ rest before results, load before = .ok results →
        load (before ++ rest) = .error fault →
        ∃ before' e after results', before ++ rest = before' ++ e :: after ∧
          load before' = .ok results' ∧ Blames before'.length (results'.map id) e fault by
      exact hsearch entries [] [] hnil
    intro rest
    induction rest with
    | nil =>
      intro before results hload hfault
      rw [List.append_nil, hload] at hfault
      cases hfault
    | cons e rest ih =>
      intro before results hload hfault
      rcases hblames before.length (results.map id) e with ⟨r, he, hr⟩ | ⟨fault', hblame⟩
      · rw [List.append_cons] at hfault ⊢
        exact ih _ _ (haccepts.snoc hload he hr) hfault
      · rw [hstops before e rest results fault' hload hblame] at hfault
        cases hfault
        exact ⟨before, e, rest, results, rfl, hload, hblame⟩
  · rintro ⟨before, e, after, results, rfl, hload, hblame⟩
    exact hstops before e after results fault hload hblame

end Loads

/-! ## Rules -/

namespace RuleEntry

variable {c : Catalog} {e : RuleEntry}

/-- A fault of a rules document is about an entry: the entry is refused on its own, or brings a rule
whose identifier was seen before. -/
inductive Blames (c : Catalog) (n : Nat) (earlier : List String) (e : RuleEntry) :
    RulesFault → Prop where
  | own {fault : EntryFault} (h : compileEach c [e] = .error (.entry 1 fault)) :
    Blames c n earlier e (.entry (n + 1) fault)
  | repeated {r : Rule} (h : compileEach c [e] = .ok [r]) (hr : r.id ∈ earlier) :
    Blames c n earlier e (.duplicateId r.id)

theorem compileEach_singleton_of_ok {r : Rule} (h : e.compile c = .ok r) :
    compileEach c [e] = .ok [r] := by
  rw [compileEach, compileFrom_cons_of_notMem h List.not_mem_nil]
  rfl

theorem compileEach_singleton_of_error {fault : EntryFault} (h : e.compile c = .error fault) :
    compileEach c [e] = .error (.entry 1 fault) :=
  compileFrom_cons_of_error h

theorem compileEach_singleton_eq_ok_iff {r : Rule} :
    compileEach c [e] = .ok [r] ↔ e.compile c = .ok r := by
  cases h : e.compile c with
  | ok r' => simp [compileEach_singleton_of_ok h]
  | error fault => simp [compileEach_singleton_of_error h]

theorem compileEach_singleton_eq_error_iff {fault : EntryFault} :
    compileEach c [e] = .error (.entry 1 fault) ↔ e.compile c = .error fault := by
  cases h : e.compile c with
  | ok r => simp [compileEach_singleton_of_ok h]
  | error fault' => simp [compileEach_singleton_of_error h]

theorem acceptsEach (c : Catalog) : AcceptsEach (compileEach c) Rule.id := by
  intro entries rules
  simp only [compileEach_singleton_eq_ok_iff]
  rw [compileEach, compileFrom_eq_ok_iff]
  simp

/-- The rules of a document are taken entry by entry. -/
theorem entrywise (c : Catalog) : Entrywise (compileEach c) Rule.id (Blames c) := by
  refine .of_loop (acceptsEach c) rfl ?_ ?_
  · intro before e after rules fault hload hblame
    rw [compileEach, compileFrom_append hload]
    cases hblame with
    | own h =>
      rw [compileFrom_cons_of_error (compileEach_singleton_eq_error_iff.mp h), Nat.add_comm]
      rfl
    | repeated h hr =>
      rw [compileFrom_cons_of_mem (compileEach_singleton_eq_ok_iff.mp h) (by simpa using hr)]
      rfl
  · intro n earlier e
    cases h : e.compile c with
    | error fault => exact .inr ⟨_, .own (compileEach_singleton_of_error h)⟩
    | ok r =>
      by_cases hr : r.id ∈ earlier
      · exact .inr ⟨_, .repeated (compileEach_singleton_of_ok h) hr⟩
      · exact .inl ⟨r, compileEach_singleton_of_ok h, hr⟩

/-- The rule set of a text is made of the entries of the text. -/
theorem load_eq_compileEach (l : Loader) (c : Catalog) {text : String} {entries : List RuleEntry}
    (h : (Node.ofText? text).bind listOfNode? = some entries) :
    (l.load c text).map (fun loaded => loaded.1.rules) =
      (compileEach c entries).mapError .fault := by
  unfold Loader.load Rule.listOfText
  rw [h]
  show Except.map _ (Except.map _ (Except.mapError _ (compileEach c entries))) = _
  cases compileEach c entries <;> rfl

end RuleEntry

/-! ## Signals -/

namespace Catalog

variable {c : Catalog} {s : Signal}

/-- The signals that a catalog with the tables of `c` has, if they have no fault. -/
def loadSignals (c : Catalog) (signals : List Signal) : Except CatalogFault (List Signal) :=
  ({ c with signals } : Catalog).check.map (·.signals)

/-- A fault of a catalog is about a signal: its identifier was seen before, or it is refused on its
own. -/
inductive Blames (c : Catalog) (earlier : List String) (s : Signal) : CatalogFault → Prop where
  | repeated (hs : s.id ∈ earlier) : Blames c earlier s (.duplicateSignal s.id)
  | own {fault : CatalogFault} (hs : s.id ∉ earlier) (h : c.loadSignals [s] = .error fault) :
    Blames c earlier s fault

/-- With tables that have no fault, only the signals decide. -/
theorem loadSignals_eq (hv : c.vocabulary.fault? = none) (signals : List Signal) :
    c.loadSignals signals =
      match signalsFault? c.vocabulary [] signals with
      | some fault => .error fault
      | none => .ok signals := by
  unfold loadSignals check fault?
  rw [hv, Option.none_or]
  cases signalsFault? c.vocabulary [] signals <;> rfl

theorem loadSignals_eq_ok_iff (hv : c.vocabulary.fault? = none) {signals results : List Signal} :
    c.loadSignals signals = .ok results ↔
      results = signals ∧ signalsFault? c.vocabulary [] signals = none := by
  rw [loadSignals_eq hv]
  cases signalsFault? c.vocabulary [] signals with
  | some fault => simp
  | none => simp [eq_comm]

theorem loadSignals_singleton_eq_ok_iff (hv : c.vocabulary.fault? = none) {s' : Signal} :
    c.loadSignals [s] = .ok [s'] ↔ s' = s ∧ s.fault? c.vocabulary = none := by
  rw [loadSignals_eq_ok_iff hv, signalsFault?_eq_none_iff]
  simp

theorem loadSignals_singleton_eq_error_iff (hv : c.vocabulary.fault? = none)
    {fault : CatalogFault} :
    c.loadSignals [s] = .error fault ↔
      ∃ own, s.fault? c.vocabulary = some own ∧ fault = .signal s.id own := by
  rw [loadSignals_eq hv]
  cases h : s.fault? c.vocabulary with
  | some own => simp [signalsFault?_cons_of_fault List.not_mem_nil h, eq_comm]
  | none =>
    rw [signalsFault?_cons_of_none List.not_mem_nil h]
    simp [signalsFault?]

theorem acceptsEach (hv : c.vocabulary.fault? = none) : AcceptsEach c.loadSignals Signal.id := by
  intro signals results
  simp only [loadSignals_singleton_eq_ok_iff hv]
  rw [loadSignals_eq_ok_iff hv, signalsFault?_eq_none_iff]
  constructor
  · rintro ⟨rfl, hnodup, -, hfaults⟩
    exact ⟨List.forall₂_same.mpr fun s hs => ⟨rfl, hfaults s hs⟩, hnodup⟩
  · rintro ⟨heach, hnodup⟩
    have heq : results = signals :=
      List.forall₂_eq_eq_eq ▸ heach.flip.imp fun _ _ h => h.1
    subst heq
    exact ⟨rfl, hnodup, by simp, fun s hs => (List.forall₂_same.mp heach s hs).2⟩

/-- The signals of a catalog are taken entry by entry. -/
theorem entrywise (hv : c.vocabulary.fault? = none) :
    Entrywise c.loadSignals Signal.id fun _ => c.Blames := by
  refine .of_loop (acceptsEach hv) ?_ ?_ ?_
  · exact (loadSignals_eq_ok_iff hv).mpr ⟨rfl, rfl⟩
  · intro before s after results fault hload hblame
    obtain ⟨rfl, hbefore⟩ := (loadSignals_eq_ok_iff hv).mp hload
    rw [loadSignals_eq hv, signalsFault?_append hbefore]
    cases hblame with
    | repeated hs => rw [signalsFault?_cons_of_mem (by simpa using hs)]
    | own hs h =>
      obtain ⟨own, hown, rfl⟩ := (loadSignals_singleton_eq_error_iff hv).mp h
      rw [signalsFault?_cons_of_fault (by simpa using hs) hown]
  · intro n earlier s
    by_cases hs : s.id ∈ earlier
    · exact .inr ⟨_, .repeated hs⟩
    · cases h : s.fault? c.vocabulary with
      | some own =>
        exact .inr ⟨_, .own hs ((loadSignals_singleton_eq_error_iff hv).mpr ⟨own, h, rfl⟩)⟩
      | none => exact .inl ⟨s, (loadSignals_singleton_eq_ok_iff hv).mpr ⟨rfl, h⟩, hs⟩

/-- In an accepted catalog, the signal found under an identifier is the one that has it. -/
theorem Accepted.get?_eq_some_iff (h : c.Accepted) {id : String} :
    c.get? id = some s ↔ c.signals.filter (·.id == id) = [s] := by
  constructor
  · intro hget
    have hid : s.id = id := by simpa using List.find?_some hget
    rw [← hid]
    exact h.filter_id (List.mem_of_find?_eq_some hget)
  · intro hfilter
    rw [get?, ← List.head?_filter, hfilter]
    rfl

end Catalog

/-! ## Texts -/

/-- **Documents are taken entry by entry.** So are the rules of a text, against whatever catalog,
and so are the signals of a catalog whose tables have no fault. The signals of a catalog that is
accepted are found by their identifiers, by a search as well as by their noted places. -/
theorem documents_entrywise (c : Catalog) :
    ((∀ l text entries, (Node.ofText? text).bind RuleEntry.listOfNode? = some entries →
        (Loader.load l c text).map (fun loaded => loaded.1.rules) =
          (RuleEntry.compileEach c entries).mapError .fault) ∧
      Entrywise (RuleEntry.compileEach c) Rule.id (RuleEntry.Blames c)) ∧
    (c.vocabulary.fault? = none → Entrywise c.loadSignals Signal.id fun _ => c.Blames) ∧
    ∀ text, (Node.ofText? text).bind Catalog.ofNode? = some c →
      (Catalog.ofText text).map (·.signals) = (c.loadSignals c.signals).mapError .fault ∧
      ∀ c', Catalog.ofText text = .ok c' →
        c' = c ∧ c'.ids = c.signals.map Signal.id ∧ (∀ id, c'.has id = true ↔ id ∈ c'.ids) ∧
        (∀ id s, c'.get? id = some s ↔ c'.signals.filter (·.id == id) = [s]) ∧
        (∀ id, (c'.place? id).isSome = true ↔ id ∈ c'.ids) ∧
        ∀ id s, c'.noted? id = some s ↔ c'.signals.filter (·.id == id) = [s] := by
  refine ⟨⟨fun l text entries => RuleEntry.load_eq_compileEach l c, RuleEntry.entrywise c⟩,
    Catalog.entrywise, fun text htext => ⟨?_, ?_⟩⟩
  · rw [Catalog.ofText_eq_check htext, Catalog.loadSignals]
    cases c.check <;> rfl
  · intro c' hc'
    rw [Catalog.ofText_eq_check htext] at hc'
    obtain ⟨rfl, haccepted⟩ := Catalog.eq_of_check (eq_ok_of_mapError hc')
    refine ⟨rfl, rfl, fun id => Catalog.has_iff_mem_ids, fun id s => haccepted.get?_eq_some_iff,
      Table.isSome_get?_places haccepted.nodup_ids, fun id s => ?_⟩
    rw [haccepted.noted?_eq_get?]
    exact haccepted.get?_eq_some_iff

/-- A catalog of two signals. -/
def harborText : String :=
  "signals:\n- id: gear\n  type: bool\n  derive:\n    op: path\n    path: g\n" ++
    "- id: lights\n  type: bool\n  derive:\n    op: path\n    path: l\n"

/-- Two rules about its signals. -/
def harborRules : String :=
  "rules:\n- title: Down\n  when:\n    all:\n    - signal: gear\n      eq: true\n  then:\n" ++
    "  - type: log\n    message: d\n- title: Lit\n  when:\n    any:\n    - signal: lights\n" ++
    "      eq: true\n  then:\n  - type: log\n    message: l\n"

theorem documents_entrywise_harbor :
    ∃ c entries rules s, (Node.ofText? harborText).bind Catalog.ofNode? = some c ∧
      (Node.ofText? harborRules).bind RuleEntry.listOfNode? = some entries ∧
      RuleEntry.compileEach c entries = .ok rules ∧ rules.map (·.id) = ["down", "lit"] ∧
      Catalog.ofText harborText = .ok c ∧ c.vocabulary.fault? = none ∧
      c.ids = ["gear", "lights"] ∧
      (∃ rules', RuleEntry.compileEach c entries.reverse = .ok rules' ∧
        (entries.reverse.zip rules').Perm (entries.zip rules)) ∧
      (∃ signals, c.loadSignals c.signals.tail = .ok signals) ∧
      c.get? "lights" = some s ∧ c.signals.filter (·.id == "lights") = [s] ∧
      (c.place? "lights").isSome = true ∧ c.noted? "lights" = some s := by
  have hparse : ((Node.ofText? harborText).bind Catalog.ofNode?).any (fun c =>
      c.fault?.isNone && c.vocabulary.fault?.isNone && decide (c.ids = ["gear", "lights"]) &&
      ((Node.ofText? harborRules).bind RuleEntry.listOfNode?).any fun entries =>
        (RuleEntry.compileEach c entries).toOption.any fun rules =>
          decide (rules.map (·.id) = ["down", "lit"])) = true := by
    decide +kernel
  obtain ⟨c, hc, hparse⟩ := (Option.any_eq_true _ _).mp hparse
  simp only [Bool.and_eq_true, decide_eq_true_eq, Option.isNone_iff_eq_none] at hparse
  obtain ⟨⟨⟨hfault, hvocabulary⟩, hids⟩, hrules⟩ := hparse
  obtain ⟨entries, hentries, hrules⟩ := (Option.any_eq_true _ _).mp hrules
  obtain ⟨rules, hrules, hruleIds⟩ := exists_of_any_toOption hrules
  have hcheck : c.check = .ok c := by rw [Catalog.check, hfault]
  have htext : Catalog.ofText harborText = .ok c := by
    rw [Catalog.ofText_eq_check hc, hcheck]
    rfl
  have hload : c.loadSignals c.signals = .ok c.signals := by
    show c.check.map _ = _
    rw [hcheck]
    rfl
  obtain ⟨⟨-, hentrywise⟩, hsignals, htexts⟩ := documents_entrywise c
  obtain ⟨-, -, hhas, hget, hplace, hnoted⟩ := (htexts harborText hc).2 c htext
  have hlights : (c.get? "lights").isSome = true := by
    have hhas := (hhas "lights").mpr (by rw [hids]; decide)
    rw [Catalog.has, List.any_eq_true] at hhas
    exact List.find?_isSome.mpr hhas
  obtain ⟨s, hs⟩ := Option.isSome_iff_exists.mp hlights
  obtain ⟨signals, htail, -⟩ :=
    (hsignals hvocabulary).shortened _ _ _ hload (List.tail_sublist c.signals)
  exact ⟨c, entries, rules, s, hc, hentries, hrules, of_decide_eq_true hruleIds, htext, hvocabulary,
    hids, hentrywise.permuted _ _ _ hrules (List.reverse_perm entries), ⟨signals, htail⟩, hs,
    (hget "lights" s).mp hs, (hplace "lights").mpr (by rw [hids]; decide),
    (hnoted "lights" s).mpr ((hget "lights" s).mp hs)⟩

end Telltale
