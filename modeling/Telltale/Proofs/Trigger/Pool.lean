import Mathlib.Data.List.Dedup
import Mathlib.Data.List.Induction
import Mathlib.Data.List.Perm.Subperm
import Mathlib.Data.List.ProdSigma
import Telltale.Proofs.Trigger.History

/-!
# Many triggers, many loads

A program loads rule sets, some of which are refused, and uses them in as many triggers as it likes.
Rule sets are numbered by one counter, and every trigger keeps its own memory.

* `Pool` is what there is of both. `Pool.step` answers a request, and `Pool.after` many.
* `Trigger.Tidy` — a memory belongs to the rules of its trigger, repeats no key and holds definite
  verdicts only. `Trigger.Tidy.step` says that every call keeps it so.
* `Trigger.KeepsTo` — a memory is about rules of its trigger and some actors. All calls but a
  dispatch keep it so, and it bounds the size of the memory.
* `Pool.getElem?_triggers_step` — the ways in which there can be a trigger after a request.
* `Pool.Sound` — rule sets are numbered from 1 on, and triggers are tidy and have loaded rules.
  `Pool.sound_after` is the induction over a run.
* `Pool.memories_stay_clean` puts it all together.
-/

namespace Telltale

/-! ## Pools -/

/-- What a trigger is used for. Rules are replaced by others that were loaded. -/
inductive Use where
  | dispatch (rule : Rule) (actor : String) (verdict : Verdict)
  | process (actor : String) (evidence : Evidence)
  | reload (set : Nat)

/-- The call of a trigger, if there are rules for it. -/
def Use.call? (ruleSets : List RuleSet) : Use → Option Call
  | .dispatch r actor v => some (.dispatch r actor v)
  | .process actor e => some (.process actor e)
  | .reload set => ruleSets[set]?.map .reload

/-- A request to a pool. Rule sets and triggers are named by their places. -/
inductive Request where
  | load (catalog : Catalog) (text : String)
  | start (set : Nat)
  | use (trigger : Nat) (use : Use)

namespace Request

/-- Whether rules are to be loaded. -/
def isLoad : Request → Bool
  | .load .. => true
  | _ => false

/-- Whether rules are to be loaded that are not refused. -/
def succeeds : Request → Bool
  | .load c text => (Rule.listOfText c text).isOk
  | _ => false

theorem isLoad_of_succeeds {q : Request} (h : q.succeeds = true) : q.isLoad = true := by
  cases q with
  | load c text => rfl
  | start set => cases h
  | use i u => cases h

/-- The actor on whose frame a trigger is to judge its rules. -/
def actorAt? (place : Nat) : Request → Option String
  | .use i (.process actor _) => if i = place then some actor else none
  | _ => none

/-- The actors on whose frames a trigger is to judge its rules. -/
def actorsAt (place : Nat) (requests : List Request) : List String :=
  requests.filterMap (actorAt? place)

end Request

/-- The rule sets that were loaded and the triggers that were made, in order. -/
structure Pool where
  loader : Loader
  ruleSets : List RuleSet
  triggers : List Trigger

namespace Pool

/-- Nothing loaded yet. -/
def start : Pool := ⟨.start, [], []⟩

/-- Loads the rules of a text, if they are not refused. -/
def load (p : Pool) (c : Catalog) (text : String) : Pool :=
  match p.loader.load c text with
  | .ok (rules, loader) => ⟨loader, p.ruleSets ++ [rules], p.triggers⟩
  | .error _ => p

/-- Makes a trigger for loaded rules. -/
def launch (p : Pool) (set : Nat) : Pool :=
  { p with triggers := p.triggers ++ (p.ruleSets[set]?.map Trigger.start).toList }

/-- Uses a trigger. -/
def use (p : Pool) (i : Nat) (u : Use) : Pool :=
  match u.call? p.ruleSets with
  | some call => { p with triggers := p.triggers.modify i (Trigger.step · call) }
  | none => p

/-- The pool after a request. One that makes no sense changes nothing. -/
def step (p : Pool) : Request → Pool
  | .load c text => p.load c text
  | .start set => p.launch set
  | .use i u => p.use i u

/-- The pool after requests in a row. -/
def after (requests : List Request) : Pool := requests.foldl step start

theorem after_snoc (requests : List Request) (q : Request) :
    after (requests ++ [q]) = (after requests).step q := List.foldl_concat ..

end Pool

/-! ## One memory -/

namespace Trigger

variable {t : Trigger}

/-- An entry of the memory after a dispatch was there before, or it is the verdict itself. -/
theorem Current.mem_dispatch (h : t.Current) {r : Rule} {actor : String} {v : Verdict}
    {entry : (String × String) × Verdict}
    (hentry : entry ∈ (t.dispatch r actor v).2.memory.verdicts) :
    entry ∈ t.memory.verdicts ∨ entry = ((r.id, actor), v) ∧ v.isDefinite = true := by
  rw [dispatch_eq h] at hentry
  split at hentry
  · next hnew =>
    rcases List.mem_cons.mp hentry with rfl | hentry
    · exact .inr ⟨rfl, hnew.1⟩
    · exact .inl (List.mem_filter.mp hentry).1
  · exact .inl hentry

/-- An entry of the memory after rules in a row was there before, or it is about one of them. -/
theorem Current.mem_processEach (h : t.Current) {actor : String} {e : Evidence} {rules : List Rule}
    {entry : (String × String) × Verdict}
    (hentry : entry ∈ (Trigger.processEach actor e rules t).2.memory.verdicts) :
    entry ∈ t.memory.verdicts ∨
      entry.1.1 ∈ rules.map (·.id) ∧ entry.1.2 = actor ∧ entry.2.isDefinite = true := by
  induction rules generalizing t with
  | nil => exact .inl hentry
  | cons r rest ih =>
    rcases ih (h.dispatch r actor (r.judge e)) hentry with hentry | ⟨hrule, hactor⟩
    · rcases h.mem_dispatch hentry with hentry | ⟨rfl, hv⟩
      · exact .inl hentry
      · exact .inr ⟨List.mem_cons_self, rfl, hv⟩
    · exact .inr ⟨List.mem_cons_of_mem _ hrule, hactor⟩

/-- A memory belongs to the rules of its trigger, repeats no key and holds definite verdicts. -/
structure Tidy (t : Trigger) : Prop where
  current : t.Current
  distinct : t.memory.Distinct
  definite : ∀ entry ∈ t.memory.verdicts, entry.2.isDefinite = true

theorem tidy_start (rules : RuleSet) : (start rules).Tidy :=
  ⟨current_start rules, List.nodup_nil, fun _ hentry => nomatch hentry⟩

theorem Tidy.step (h : t.Tidy) (call : Call) : (t.step call).Tidy := by
  cases call with
  | dispatch r actor v =>
    refine ⟨h.current.dispatch r actor v, h.current.distinct_dispatch h.distinct r actor v,
      fun entry hentry => ?_⟩
    rcases h.current.mem_dispatch hentry with hentry | ⟨rfl, hv⟩
    · exact h.definite entry hentry
    · exact hv
  | process actor e =>
    refine ⟨h.current.process actor e, h.current.distinct_processEach h.distinct actor e _,
      fun entry hentry => ?_⟩
    rcases h.current.mem_processEach hentry with hentry | ⟨-, -, hv⟩
    · exact h.definite entry hentry
    · exact hv
  | reload rules => exact tidy_start rules

/-- A memory is about rules of its trigger and about actors of a list. -/
def KeepsTo (actors : List String) (t : Trigger) : Prop :=
  ∀ entry ∈ t.memory.verdicts, entry.1.1 ∈ t.ruleSet.rules.map (·.id) ∧ entry.1.2 ∈ actors

variable {actors actors' : List String}

theorem keepsTo_start (actors : List String) (rules : RuleSet) : KeepsTo actors (start rules) :=
  fun _ hentry => nomatch hentry

theorem KeepsTo.mono (h : t.KeepsTo actors) (hsub : actors ⊆ actors') : t.KeepsTo actors' :=
  fun entry hentry => ⟨(h entry hentry).1, hsub (h entry hentry).2⟩

/-- Judging the rules on a frame of one of the actors adds nothing else. -/
theorem KeepsTo.process (h : t.KeepsTo actors) (ht : t.Current) {actor : String}
    (hactor : actor ∈ actors) (e : Evidence) : (t.process actor e).2.KeepsTo actors := by
  intro entry hentry
  rw [ruleSet_process]
  rcases ht.mem_processEach hentry with hentry | ⟨hrule, heq, -⟩
  · exact h entry hentry
  · exact ⟨hrule, heq ▸ hactor⟩

/-- Such a memory has room for one verdict of each rule for each actor. -/
theorem KeepsTo.size_le (h : t.KeepsTo actors) (ht : t.memory.Distinct) :
    t.memory.size ≤ t.ruleSet.rules.length * actors.dedup.length := by
  have hkeys : t.memory.verdicts.map (·.1) ⊆ t.ruleSet.rules.map (·.id) ×ˢ actors.dedup := by
    intro key hkey
    obtain ⟨entry, hentry, rfl⟩ := List.mem_map.mp hkey
    obtain ⟨hrule, hactor⟩ := h entry hentry
    exact List.mem_product.mpr ⟨hrule, List.mem_dedup.mpr hactor⟩
  have hlength := (List.subperm_of_subset ht hkeys).length_le
  rwa [List.length_map, List.length_product, List.length_map] at hlength

end Trigger

/-! ## All of them -/

namespace Pool

variable {p : Pool} {q : Request}

/-- A refused text leaves everything as it is. -/
theorem load_of_error {c : Catalog} {text : String} {fault : Refusal RulesFault}
    (h : Rule.listOfText c text = .error fault) : p.load c text = p := by
  unfold load Loader.load
  rw [h]
  rfl

theorem load_of_ok {c : Catalog} {text : String} {rules : List Rule}
    (h : Rule.listOfText c text = .ok rules) :
    p.load c text =
      ⟨⟨p.loader.next + 1⟩, p.ruleSets ++ [⟨p.loader.next, rules⟩], p.triggers⟩ := by
  unfold load Loader.load
  rw [h]
  rfl

/-- A request adds a rule set under the next number, or it leaves the rule sets as they are. -/
theorem ruleSets_step (p : Pool) (q : Request) :
    (q.succeeds = true ∧ ∃ rules, (p.step q).loader = ⟨p.loader.next + 1⟩ ∧
      (p.step q).ruleSets = p.ruleSets ++ [⟨p.loader.next, rules⟩]) ∨
    (q.succeeds = false ∧ (p.step q).loader = p.loader ∧ (p.step q).ruleSets = p.ruleSets) := by
  cases q with
  | load c text =>
    rw [step, Request.succeeds]
    cases hload : Rule.listOfText c text with
    | ok rules =>
      rw [load_of_ok hload]
      exact .inl ⟨rfl, rules, rfl, rfl⟩
    | error fault =>
      rw [load_of_error hload]
      exact .inr ⟨rfl, rfl, rfl⟩
  | start set => exact .inr ⟨rfl, rfl, rfl⟩
  | use i u =>
    rw [step, use]
    split <;> exact .inr ⟨rfl, rfl, rfl⟩

/-- After a request there is a trigger that was there before, or a new one, or one that it was used
for. -/
theorem getElem?_triggers_step {i : Nat} {t' : Trigger} (h : (p.step q).triggers[i]? = some t') :
    p.triggers[i]? = some t' ∨
    (∃ rules ∈ p.ruleSets, t' = .start rules) ∨
    ∃ u call t, q = .use i u ∧ u.call? p.ruleSets = some call ∧ p.triggers[i]? = some t ∧
      t' = t.step call := by
  cases q with
  | load c text =>
    rw [step] at h
    cases hload : Rule.listOfText c text with
    | ok rules =>
      rw [load_of_ok hload] at h
      exact .inl h
    | error fault =>
      rw [load_of_error hload] at h
      exact .inl h
  | start set =>
    rw [step, launch, List.getElem?_append] at h
    split at h
    · exact .inl h
    · obtain ⟨rules, hrules, rfl⟩ :=
        Option.map_eq_some_iff.mp (Option.mem_toList.mp (List.mem_of_getElem? h))
      exact .inr (.inl ⟨rules, List.mem_of_getElem? hrules, rfl⟩)
  | use i' u =>
    rw [step, use] at h
    split at h
    · next call hcall =>
      rw [List.getElem?_modify] at h
      obtain ⟨t, ht, rfl⟩ := Option.map_eq_some_iff.mp h
      split
      · next heq => exact .inr (.inr ⟨u, call, t, heq ▸ rfl, hcall, ht, rfl⟩)
      · exact .inl ht
    · exact .inl h

/-- A trigger with loaded rules has loaded rules after every use. -/
theorem mem_ruleSets_of_call? {u : Use} {call : Call} {t : Trigger} (ht : t.ruleSet ∈ p.ruleSets)
    (hcall : u.call? p.ruleSets = some call) : (t.step call).ruleSet ∈ p.ruleSets := by
  cases u with
  | dispatch r actor v =>
    cases hcall
    exact (Trigger.ruleSet_dispatch t r actor v).symm ▸ ht
  | process actor e =>
    cases hcall
    exact (Trigger.ruleSet_process t actor e).symm ▸ ht
  | reload set =>
    obtain ⟨rules, hrules, rfl⟩ := Option.map_eq_some_iff.mp hcall
    exact List.mem_of_getElem? hrules

/-- Rule sets are numbered from 1 on, and triggers are tidy and have loaded rules. -/
structure Sound (p : Pool) : Prop where
  numbered : p.ruleSets.map (·.generation) = List.range' 1 p.ruleSets.length
  next : p.loader.next = 1 + p.ruleSets.length
  loaded : ∀ t ∈ p.triggers, t.ruleSet ∈ p.ruleSets
  tidy : ∀ t ∈ p.triggers, t.Tidy

theorem sound_start : start.Sound where
  numbered := rfl
  next := rfl
  loaded _ ht := nomatch ht
  tidy _ ht := nomatch ht

theorem Sound.step (h : p.Sound) (q : Request) : (p.step q).Sound := by
  have htriggers : ∀ t ∈ (p.step q).triggers, t.ruleSet ∈ p.ruleSets ∧ t.Tidy := by
    intro t' ht'
    obtain ⟨i, hi⟩ := List.mem_iff_getElem?.mp ht'
    rcases getElem?_triggers_step hi with hold | ⟨rules, hrules, rfl⟩ |
      ⟨u, call, t, -, hcall, hold, rfl⟩
    · have ht := List.mem_of_getElem? hold
      exact ⟨h.loaded t' ht, h.tidy t' ht⟩
    · exact ⟨hrules, Trigger.tidy_start rules⟩
    · have ht := List.mem_of_getElem? hold
      exact ⟨mem_ruleSets_of_call? (h.loaded t ht) hcall, (h.tidy t ht).step call⟩
  have htidy : ∀ t ∈ (p.step q).triggers, t.Tidy := fun t ht => (htriggers t ht).2
  rcases ruleSets_step p q with ⟨-, rules, hloader, hruleSets⟩ | ⟨-, hloader, hruleSets⟩
  · refine ⟨?_, ?_, fun t ht => ?_, htidy⟩
    · rw [hruleSets, List.map_append, h.numbered, List.length_append, List.length_singleton,
        List.range'_1_concat, List.map_singleton, h.next]
    · rw [hloader, hruleSets, List.length_append, List.length_singleton, ← Nat.add_assoc, h.next]
    · rw [hruleSets]
      exact List.mem_append_left _ (htriggers t ht).1
  · refine ⟨?_, ?_, fun t ht => ?_, htidy⟩
    · rw [hruleSets, h.numbered]
    · rw [hloader, hruleSets, h.next]
    · rw [hruleSets]
      exact (htriggers t ht).1

/-- **The invariant of every run.** -/
theorem sound_after (requests : List Request) : (after requests).Sound := by
  induction requests using List.reverseRecOn with
  | nil => exact sound_start
  | append_singleton requests q ih =>
    rw [after_snoc]
    exact ih.step q

/-- There are as many rule sets as there were loads that were not refused. -/
theorem length_ruleSets_after (requests : List Request) :
    (after requests).ruleSets.length = requests.countP Request.succeeds := by
  induction requests using List.reverseRecOn with
  | nil => rfl
  | append_singleton requests q ih =>
    rw [after_snoc, List.countP_append, List.countP_singleton, ← ih]
    rcases ruleSets_step (after requests) q with ⟨hq, rules, -, hruleSets⟩ | ⟨hq, -, hruleSets⟩
    · rw [hruleSets, hq, List.length_append, List.length_singleton, if_pos rfl]
    · rw [hruleSets, hq]
      rfl

/-- A trigger that is given verdicts by its own rules alone remembers nothing of others. -/
theorem keepsTo_after {requests : List Request} {i : Nat} {t : Trigger}
    (hdispatch : ∀ r actor v, Request.use i (.dispatch r actor v) ∉ requests)
    (ht : (after requests).triggers[i]? = some t) :
    t.KeepsTo (Request.actorsAt i requests) := by
  induction requests using List.reverseRecOn generalizing t with
  | nil => cases ht
  | append_singleton requests q ih =>
    have hbefore : ∀ r actor v, Request.use i (.dispatch r actor v) ∉ requests :=
      fun r actor v hmem => hdispatch r actor v (List.mem_append_left _ hmem)
    have hactors : Request.actorsAt i (requests ++ [q]) =
        Request.actorsAt i requests ++ (q.actorAt? i).toList := by
      unfold Request.actorsAt
      rw [List.filterMap_append]
      cases hq : q.actorAt? i <;> simp [hq]
    rw [hactors]
    have hsub := List.subset_append_left (Request.actorsAt i requests) (q.actorAt? i).toList
    rw [after_snoc] at ht
    rcases getElem?_triggers_step ht with hold | ⟨rules, -, rfl⟩ |
      ⟨u, call, t, rfl, hcall, hold, rfl⟩
    · exact (ih hbefore hold).mono hsub
    · exact Trigger.keepsTo_start _ rules
    · cases u with
      | dispatch r actor v =>
        exact absurd (List.mem_append_right _ List.mem_cons_self) (hdispatch r actor v)
      -- its own rules are judged, for an actor that the request names
      | process actor e =>
        cases hcall
        have hactor : actor ∈ (Request.actorAt? i (.use i (.process actor e))).toList := by
          rw [Request.actorAt?, if_pos rfl]
          exact List.mem_singleton_self actor
        have htidy := (sound_after requests).tidy t (List.mem_of_getElem? hold)
        exact ((ih hbefore hold).mono hsub).process htidy.current (List.mem_append_right _ hactor) e
      | reload set =>
        obtain ⟨rules, -, rfl⟩ := Option.map_eq_some_iff.mp hcall
        exact Trigger.keepsTo_start _ rules

/-- As words of 64 bits, the generations grow as long as there are few enough of them. -/
theorem Sound.pairwise_words (h : p.Sound) (hlength : p.ruleSets.length < 2 ^ 64) :
    (p.ruleSets.map fun s => UInt64.ofNat s.generation).Pairwise (· < ·) := by
  have hwords : (p.ruleSets.map fun s => UInt64.ofNat s.generation) =
      (List.range' 1 p.ruleSets.length).map UInt64.ofNat := by
    rw [← h.numbered, List.map_map]
    rfl
  rw [hwords, List.pairwise_map]
  refine (List.pairwise_lt_range' 1).imp_of_mem fun {n m} hn hm hlt => ?_
  -- both are below `2 ^ 64`, so neither wraps around
  rw [List.mem_range'_1] at hn hm
  rw [UInt64.lt_iff_toNat_lt, UInt64.toNat_ofNat', UInt64.toNat_ofNat', Nat.mod_eq_of_lt (by omega),
    Nat.mod_eq_of_lt (by omega)]
  exact hlt

/-- **Generations and memories stay clean.** Loads and uses of triggers may be mixed in any order,
as long as there are fewer than `2 ^ 64` loads. The rule sets that are loaded have growing
generations, also as words of 64 bits, and a refused one takes none. Every memory has the generation
of the rules of its trigger, so that no dispatch finds it void, and holds no undecided verdict. If a
trigger is never given a verdict from outside, its memory is about rules that it has, and holds no
more verdicts than there are rules times actors. -/
theorem memories_stay_clean (requests : List Request)
    (hloads : requests.countP Request.isLoad < 2 ^ 64) :
    let p := after requests
    (p.ruleSets.map fun s => UInt64.ofNat s.generation).Pairwise (· < ·) ∧
    p.ruleSets.map (·.generation) = List.range' 1 (requests.countP Request.succeeds) ∧
    (∀ c text fault, Rule.listOfText c text = .error fault → p.step (.load c text) = p) ∧
    (∀ t ∈ p.triggers, t.ruleSet ∈ p.ruleSets ∧ t.memory.generation = t.ruleSet.generation ∧
      t.currentMemory = t.memory ∧ ∀ entry ∈ t.memory.verdicts, entry.2 ≠ .undecided) ∧
    ∀ i t, p.triggers[i]? = some t →
      (∀ r actor v, Request.use i (.dispatch r actor v) ∉ requests) →
      (∀ entry ∈ t.memory.verdicts, entry.1.1 ∈ t.ruleSet.rules.map (·.id)) ∧
      t.memory.size ≤ t.ruleSet.rules.length * (Request.actorsAt i requests).dedup.length := by
  intro p
  have hsound : p.Sound := sound_after requests
  have hlength : p.ruleSets.length = requests.countP Request.succeeds :=
    length_ruleSets_after requests
  have hfew : p.ruleSets.length < 2 ^ 64 := by
    have hle : requests.countP Request.succeeds ≤ requests.countP Request.isLoad :=
      List.countP_mono_left fun q _ => Request.isLoad_of_succeeds
    exact hlength ▸ Nat.lt_of_le_of_lt hle hloads
  refine ⟨hsound.pairwise_words hfew, hlength ▸ hsound.numbered,
    fun c text fault => load_of_error, fun t ht => ?_, fun i t ht hdispatch => ?_⟩
  · have htidy := hsound.tidy t ht
    refine ⟨hsound.loaded t ht, htidy.current, htidy.current.currentMemory_eq,
      fun entry hentry hv => ?_⟩
    have hdefinite := htidy.definite entry hentry
    rw [hv] at hdefinite
    cases hdefinite
  · have hkeeps := keepsTo_after hdispatch ht
    exact ⟨fun entry hentry => (hkeeps entry hentry).1,
      hkeeps.size_le (hsound.tidy t (List.mem_of_getElem? ht)).distinct⟩

/-- A document with one rule. -/
def lampText : String :=
  "rules:\n- title: Lamp\n  when:\n    all:\n    - field: lamp\n      eq: true\n" ++
    "  then:\n  - type: set_flag\n    token: LAMP\n"

/-- A frame that tells of the lamp. -/
def lampIs (lit : Bool) : Evidence :=
  ⟨⟨.dashboard, none, ⟨0, 0⟩, .object [("lamp", .bool lit)]⟩, .absent, []⟩

/-- Two triggers, the second of which is given a verdict of a rule that it does not have. The second
load is refused. -/
def lampRequests : List Request :=
  [.load ⟨1, ⟨[], []⟩, []⟩ lampText, .load ⟨1, ⟨[], []⟩, []⟩ "rules: 1",
    .load ⟨1, ⟨[], []⟩, []⟩ lampText, .start 0, .start 1, .use 0 (.process "a" (lampIs true)),
    .use 0 (.reload 1), .use 0 (.process "a" (lampIs true)), .use 0 (.process "b" (lampIs false)),
    .use 1 (.dispatch ⟨"stray", "Stray", ⟨none, []⟩, none, none, [], []⟩ "a" .holds)]

theorem memories_stay_clean_lamp :
    let p := after lampRequests
    lampRequests.countP Request.isLoad = 3 ∧ p.ruleSets.map (·.generation) = [1, 2] ∧
    (∃ t, p.triggers[0]? = some t ∧ t.memory.generation = 2 ∧ t.ruleSet.generation = 2 ∧
      t.memory.size = 2 ∧ t.ruleSet.rules.length = 1 ∧
      (Request.actorsAt 0 lampRequests).dedup = ["a", "b"] ∧
      t.memory.size ≤ t.ruleSet.rules.length * (Request.actorsAt 0 lampRequests).dedup.length) ∧
    ∃ t, p.triggers[1]? = some t ∧ t.memory.size = 1 ∧ t.currentMemory = t.memory := by
  intro p
  have hcount : lampRequests.countP Request.isLoad = 3 := by decide
  have hrun : (decide (List.range' 1 (lampRequests.countP Request.succeeds) = [1, 2]) &&
      ((p.triggers[0]?.any fun t => decide (t.ruleSet.generation = 2 ∧ t.memory.size = 2 ∧
          t.ruleSet.rules.length = 1)) &&
        p.triggers[1]?.any fun t => decide (t.memory.size = 1))) = true := by decide +kernel
  obtain ⟨hgenerations, hrun⟩ := Bool.and_eq_true_iff.mp hrun
  obtain ⟨hfirst, hsecond⟩ := Bool.and_eq_true_iff.mp hrun
  obtain ⟨t, ht, hfirst⟩ := (Option.any_eq_true _ _).mp hfirst
  obtain ⟨t', ht', hsecond⟩ := (Option.any_eq_true _ _).mp hsecond
  rw [decide_eq_true_eq] at hgenerations hfirst hsecond
  obtain ⟨-, hnumbered, -, hmemory, hbound⟩ :=
    memories_stay_clean lampRequests (hcount ▸ by decide)
  have hnone : ∀ r actor v, Request.use 0 (.dispatch r actor v) ∉ lampRequests := by
    simp [lampRequests]
  obtain ⟨-, hgeneration, -⟩ := hmemory t (List.mem_of_getElem? ht)
  obtain ⟨-, -, hcurrent, -⟩ := hmemory t' (List.mem_of_getElem? ht')
  obtain ⟨hrules, hsize, hlength⟩ := hfirst
  exact ⟨hcount, hnumbered.trans hgenerations,
    ⟨t, ht, hgeneration.trans hrules, hrules, hsize, hlength, by decide +kernel,
      (hbound 0 t ht hnone).2⟩, t', ht', hsecond, hcurrent⟩

end Pool

end Telltale
