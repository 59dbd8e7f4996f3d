import Telltale.Proofs.Rule.Loaded
import Telltale.Proofs.Session.Run

/-!
# Flags follow what is remembered

A session keeps the flags of an actor apart from the verdicts that it remembers. Where one rule has
a flag to itself, raises it when it begins to hold and lowers it when it ceases to, the two agree.

* `Rule.Switches`, `RuleSet.Owner` — a rule raises a flag and lowers it again, and no other rule of
  its set mentions the flag.
* `Flag.Follows` — what one frame can do to the verdict that is remembered of a rule and to a flag:
  both stay, or the verdict is taken down and the flag is raised exactly if it holds.
* `Trigger.follows_dispatch`, `Trigger.follows_process`, `Session.follows_ingest` — the flag of an
  owner follows its verdicts on one dispatch, on one frame, and in a session.
* `Session.flags_show_memory` — after every run, the flag is raised while the rule is remembered
  to hold and lowered while it is remembered to fail, whichever rules were loaded on the way.
-/

namespace Telltale

/-! ## Rules with a flag to themselves -/

/-- The flag that an action raises or lowers. -/
def Action.token? : Action → Option String
  | .setFlag token | .clearFlag token => some token
  | .log _ | .emit .. => none

/-- Whether a rule raises or lowers a flag. -/
def Rule.mentions (flag : String) (r : Rule) : Bool :=
  (r.onRise ++ r.onFall).any fun a => a.token? == some flag

theorem Rule.token?_ne_of_mentions {flag : String} {r : Rule} (h : r.mentions flag = false) :
    ∀ a ∈ r.onRise ++ r.onFall, a.token? ≠ some flag := by
  simpa [mentions] using List.any_eq_false.mp h

/-- Whether an action raises a flag. -/
def Action.raises (flag : String) : Action → Bool
  | .setFlag token => token == flag
  | _ => false

/-- Whether an action lowers a flag. -/
def Action.lowers (flag : String) : Action → Bool
  | .clearFlag token => token == flag
  | _ => false

theorem Action.any_raises {flag : String} {actions : List Action} :
    actions.any (raises flag) = true ↔ .setFlag flag ∈ actions := by
  have hraises (a : Action) : a.raises flag = true ↔ a = .setFlag flag := by
    cases a <;> simp [raises]
  simp only [List.any_eq_true, hraises, exists_eq_right]

theorem Action.any_lowers {flag : String} {actions : List Action} :
    actions.any (lowers flag) = true ↔ .clearFlag flag ∈ actions := by
  have hlowers (a : Action) : a.lowers flag = true ↔ a = .clearFlag flag := by
    cases a <;> simp [lowers]
  simp only [List.any_eq_true, hlowers, exists_eq_right]

/-- A rule raises a flag when it begins to hold and lowers it when it ceases to. -/
structure Rule.Switches (flag : String) (r : Rule) : Prop where
  set_mem_onRise : .setFlag flag ∈ r.onRise
  clear_notMem_onRise : .clearFlag flag ∉ r.onRise
  clear_mem_onFall : .clearFlag flag ∈ r.onFall
  set_notMem_onFall : .setFlag flag ∉ r.onFall

theorem Rule.switches_iff {flag : String} {r : Rule} :
    r.Switches flag ↔
      (r.onRise.any (Action.raises flag) = true ∧ ¬ r.onRise.any (Action.lowers flag) = true) ∧
      r.onFall.any (Action.lowers flag) = true ∧ ¬ r.onFall.any (Action.raises flag) = true := by
  simp only [Action.any_raises, Action.any_lowers]
  constructor
  · intro h
    exact ⟨⟨h.set_mem_onRise, h.clear_notMem_onRise⟩, h.clear_mem_onFall, h.set_notMem_onFall⟩
  · rintro ⟨⟨hset, hclear⟩, hclear', hset'⟩
    exact ⟨hset, hclear, hclear', hset'⟩

instance (flag : String) (r : Rule) : Decidable (r.Switches flag) :=
  decidable_of_iff' _ Rule.switches_iff

/-- A rule is the only one of its set that mentions a flag, and switches it. -/
structure RuleSet.Owner (flag : String) (s : RuleSet) (r : Rule) : Prop where
  alone : s.rules.filter (·.mentions flag) = [r]
  switches : r.Switches flag

theorem RuleSet.Owner.mem {flag : String} {s : RuleSet} {r : Rule} (h : s.Owner flag r) :
    r ∈ s.rules :=
  List.mem_of_mem_filter (h.alone ▸ List.mem_singleton_self r)

/-- Every other rule of a loaded set has another identifier and does not mention the flag. -/
theorem RuleSet.Owner.eq_or_other {flag : String} {c : Catalog} {s : RuleSet} {r : Rule}
    (h : s.Owner flag r) (hs : s.Loaded c) {r' : Rule} (hr' : r' ∈ s.rules) :
    r' = r ∨ (r.id ≠ r'.id ∧ r'.mentions flag = false) := by
  by_cases hid : r.id = r'.id
  · exact .inl (hs.eq_of_id hr' h.mem hid.symm)
  cases hmentions : r'.mentions flag with
  | false => exact .inr ⟨hid, rfl⟩
  | true =>
    have hmem : r' ∈ s.rules.filter (·.mentions flag) := List.mem_filter.mpr ⟨hr', hmentions⟩
    rw [h.alone] at hmem
    exact .inl (List.mem_singleton.mp hmem)

/-- The rules of a set are loaded, and one of them has the flag to itself. -/
def RuleSet.HasOwner (flag : String) (s : RuleSet) : Prop :=
  (∃ c, s.Loaded c) ∧ ∃ r, s.Owner flag r

/-! ## Actions and batches -/

namespace Session

variable {flag : String}

/-- Actions that do not lower a flag raise it if one of them does. -/
theorem mem_foldl_of_clear_notMem {actions : List Action} (h : .clearFlag flag ∉ actions)
    (flags : Names) :
    flag ∈ actions.foldl applyAction flags ↔ flag ∈ flags ∨ .setFlag flag ∈ actions := by
  induction actions generalizing flags with
  | nil => simp
  | cons a rest ih =>
    rw [List.foldl_cons, ih fun hrest => h (List.mem_cons_of_mem _ hrest)]
    cases a with
    | setFlag token => simp [applyAction, Names.mem_insert]; grind
    | clearFlag token =>
      have hne : flag ≠ token := fun heq => h (by simp [heq])
      simp [applyAction, Names.mem_erase, hne]
    | log message => simp [applyAction]
    | emit name payload => simp [applyAction]

/-- Actions that do not raise a flag lower it if one of them does. -/
theorem mem_foldl_of_set_notMem {actions : List Action} (h : .setFlag flag ∉ actions)
    (flags : Names) :
    flag ∈ actions.foldl applyAction flags ↔ flag ∈ flags ∧ .clearFlag flag ∉ actions := by
  induction actions generalizing flags with
  | nil => simp
  | cons a rest ih =>
    rw [List.foldl_cons, ih fun hrest => h (List.mem_cons_of_mem _ hrest)]
    cases a with
    | setFlag token =>
      have hne : flag ≠ token := fun heq => h (by simp [heq])
      simp [applyAction, Names.mem_insert, hne]
    | clearFlag token => simp [applyAction, Names.mem_erase]; grind
    | log message => simp [applyAction]
    | emit name payload => simp [applyAction]

/-- Actions of other flags leave a flag alone. -/
theorem mem_foldl_of_other {actions : List Action} (h : ∀ a ∈ actions, a.token? ≠ some flag)
    (flags : Names) : flag ∈ actions.foldl applyAction flags ↔ flag ∈ flags := by
  have hset : Action.setFlag flag ∉ actions := fun hmem => h _ hmem rfl
  have hclear : Action.clearFlag flag ∉ actions := fun hmem => h _ hmem rfl
  rw [mem_foldl_of_clear_notMem hclear]
  exact or_iff_left hset

theorem applyBatches_append (flags : Names) (batches batches' : List Batch) :
    applyBatches flags (batches ++ batches') = applyBatches (applyBatches flags batches) batches' := by
  simp [applyBatches, List.flatMap_append, List.foldl_append]

/-- A single batch applies its actions. -/
theorem applyBatches_toList (flags : Names) (batch? : Option Batch) :
    applyBatches flags batch?.toList =
      ((batch?.map (·.actions)).getD []).foldl applyAction flags := by
  cases batch? <;> simp [applyBatches]

end Session

/-! ## One dispatch -/

/-- What becomes of the verdict that is remembered of a rule, and of the flags: the verdict stays,
and so does the flag, or the rule is now remembered to hold and the flag is raised, or the rule is
now remembered to fail and the flag is lowered. -/
inductive Flag.Follows (flag : String) :
    Option Verdict × Names → Option Verdict × Names → Prop where
  | stays {v : Option Verdict} {flags flags' : Names} (h : flag ∈ flags' ↔ flag ∈ flags) :
    Follows flag (v, flags) (v, flags')
  | rises {before : Option Verdict × Names} {flags' : Names} (h : flag ∈ flags') :
    Follows flag before (some .holds, flags')
  | falls {before : Option Verdict × Names} {flags' : Names} (h : flag ∉ flags') :
    Follows flag before (some .fails, flags')

namespace Flag.Follows

variable {flag : String} {x y z : Option Verdict × Names}

theorem refl (flag : String) (x : Option Verdict × Names) : Follows flag x x := .stays .rfl

theorem trans (h : Follows flag x y) (h' : Follows flag y z) : Follows flag x z := by
  cases h' with
  | rises hraised => exact .rises hraised
  | falls hlowered => exact .falls hlowered
  | stays hkept =>
    cases h with
    | stays hkept' => exact .stays (hkept.trans hkept')
    | rises hraised => exact .rises (hkept.mpr hraised)
    | falls hlowered => exact .falls (mt hkept.mp hlowered)

end Flag.Follows

/-- The flag is raised beside a verdict that holds and lowered beside one that fails. -/
structure Flag.Shows (flag : String) (x : Option Verdict × Names) : Prop where
  raised : x.1 = some .holds → flag ∈ x.2
  lowered : x.1 = some .fails → flag ∉ x.2

/-- The flag is lowered while no verdict is remembered. -/
def Flag.Silent (flag : String) (x : Option Verdict × Names) : Prop := x.1 = none → flag ∉ x.2

theorem Flag.Shows.follows {flag : String} {x y : Option Verdict × Names} (hx : Shows flag x)
    (h : Follows flag x y) : Shows flag y := by
  cases h with
  | stays hkept => exact ⟨fun hv => hkept.mpr (hx.raised hv), fun hv => mt hkept.mp (hx.lowered hv)⟩
  | rises hraised => exact ⟨fun _ => hraised, nofun⟩
  | falls hlowered => exact ⟨nofun, fun _ => hlowered⟩

theorem Flag.Silent.follows {flag : String} {x y : Option Verdict × Names} (hx : Silent flag x)
    (h : Follows flag x y) : Silent flag y := by
  cases h with
  | stays hkept => exact fun hv => mt hkept.mp (hx hv)
  | rises hraised => exact nofun
  | falls hlowered => exact nofun

namespace Trigger

open Session

variable {flag : String} {t : Trigger} {r r' : Rule}

/-- What is remembered of a rule for an actor, beside flags. -/
def beside (t : Trigger) (rule actor : String) (flags : Names) : Option Verdict × Names :=
  (t.memory.get? rule actor, flags)

/-- A dispatch of a rule that does not mention a flag leaves it alone. -/
theorem mem_applyBatches_dispatch_other (ht : t.Current) (hr : r.mentions flag = false)
    (actor : String) (v : Verdict) (flags : Names) :
    flag ∈ applyBatches flags (t.dispatch r actor v).1.toList ↔ flag ∈ flags := by
  rw [applyBatches_toList]
  cases hbatch : (t.dispatch r actor v).1 with
  | none => exact .rfl
  | some b =>
    have hactions := (of_mem_dispatch ht hbatch).2
    exact mem_foldl_of_other (fun a ha => Rule.token?_ne_of_mentions hr a (hactions a ha)) flags

/-- The batch of a rule that switches a flag leaves it raised or lowered. -/
theorem follows_batch? (hr : r.Switches flag) {v : Verdict} (hv : v.isDefinite = true)
    (actor : String) (before : Option Verdict × Names) (flags : Names) :
    Flag.Follows flag before (some v, applyBatches flags (batch? r actor v).toList) := by
  cases v with
  | holds =>
    have hne : r.onRise.isEmpty = false :=
      List.isEmpty_eq_false_iff.mpr (List.ne_nil_of_mem hr.set_mem_onRise)
    refine .rises ?_
    rw [applyBatches_toList, batch?, edgeActions?]
    simp only [hne, Bool.false_eq_true, if_false, Option.map_some, Option.getD_some]
    exact (mem_foldl_of_clear_notMem hr.clear_notMem_onRise flags).mpr (.inr hr.set_mem_onRise)
  | fails =>
    have hne : r.onFall.isEmpty = false :=
      List.isEmpty_eq_false_iff.mpr (List.ne_nil_of_mem hr.clear_mem_onFall)
    refine .falls ?_
    rw [applyBatches_toList, batch?, edgeActions?]
    simp only [hne, Bool.false_eq_true, if_false, Option.map_some, Option.getD_some]
    rw [mem_foldl_of_set_notMem hr.set_notMem_onFall]
    exact fun h => h.2 hr.clear_mem_onFall
  | undecided => cases hv

/-- A flag follows the verdicts of the rule that switches it when that rule, or another one that
does not mention the flag, is dispatched. -/
theorem follows_dispatch (ht : t.Current) (hr : r.Switches flag)
    (hr' : r' = r ∨ (r.id ≠ r'.id ∧ r'.mentions flag = false)) (actor : String) (v : Verdict)
    (flags : Names) :
    Flag.Follows flag (t.beside r.id actor flags)
      ((t.dispatch r' actor v).2.beside r.id actor
        (applyBatches flags (t.dispatch r' actor v).1.toList)) := by
  unfold beside
  rcases hr' with rfl | ⟨hid, hmentions⟩
  · rw [dispatch_eq ht]
    split
    · next hnews =>
      rw [Memory.get?_set, if_pos ⟨rfl, rfl⟩]
      exact follows_batch? hr hnews.1 actor _ flags
    · exact .stays .rfl
  · rw [get?_dispatch ht, if_neg fun h => hid h.1]
    exact .stays (mem_applyBatches_dispatch_other ht hmentions actor v flags)

/-! ## One frame -/

theorem follows_processEach (ht : t.Current) (hr : r.Switches flag) {rules : List Rule}
    (hrules : ∀ r' ∈ rules, r' = r ∨ (r.id ≠ r'.id ∧ r'.mentions flag = false)) (actor : String)
    (e : Evidence) (flags : Names) :
    Flag.Follows flag (t.beside r.id actor flags)
      ((processEach actor e rules t).2.beside r.id actor
        (applyBatches flags (processEach actor e rules t).1)) := by
  induction rules generalizing t flags with
  | nil => exact .refl _ _
  | cons r' rest ih =>
    obtain ⟨hr', hrest⟩ := List.forall_mem_cons.mp hrules
    rw [processEach_cons, applyBatches_append]
    exact (follows_dispatch ht hr hr' actor (r'.judge e) flags).trans
      (ih (ht.dispatch r' actor (r'.judge e)) hrest _)

/-- A flag follows the verdicts of its owner when the rules of a loaded set are judged. -/
theorem follows_process (ht : t.Current) {c : Catalog} (hload : t.ruleSet.Loaded c)
    (hr : t.ruleSet.Owner flag r) (actor : String) (e : Evidence) (flags : Names) :
    Flag.Follows flag (t.beside r.id actor flags)
      ((t.process actor e).2.beside r.id actor (applyBatches flags (t.process actor e).1)) :=
  follows_processEach ht hr.switches (fun _ hr' => hr.eq_or_other hload hr') actor e flags

end Trigger

/-! ## Sessions -/

namespace Session

variable {flag : String} {s : Session} {r : Rule}

/-- What is remembered of a rule for an actor, beside the flags of the actor. -/
def besideOf (s : Session) (rule actor : String) : Option Verdict × Names :=
  s.trigger.beside rule actor (s.stateOf actor).flags

/-- A flag follows the verdicts of its owner when a frame is taken in, for every actor. -/
theorem follows_ingest (hs : s.trigger.Current) {c : Catalog} (hload : s.trigger.ruleSet.Loaded c)
    (hr : s.trigger.ruleSet.Owner flag r) (actor : String) (f : Frame) (x : Externals)
    (other : String) :
    Flag.Follows flag (s.besideOf r.id other) ((s.ingest actor f x).2.besideOf r.id other) := by
  unfold besideOf stateOf
  rw [actor?_ingest]
  by_cases h : other = actor
  · subst h
    rw [if_pos rfl]
    exact Trigger.follows_process hs hload hr other _ _
  · rw [if_neg h]
    have hmemory : (s.ingest actor f x).2.trigger.memory.get? r.id other =
        s.trigger.memory.get? r.id other :=
      Trigger.get?_processEach_other hs h _ _ r.id
    unfold Trigger.beside
    rw [hmemory]
    exact .refl _ _

/-! ## The flag and the memory on a run -/

/-- The flag is raised for an actor. -/
def Raised (s : Session) (flag actor : String) : Prop :=
  ∃ flags, s.flags? actor = some flags ∧ flag ∈ flags

theorem raised_iff {actor : String} : s.Raised flag actor ↔ flag ∈ (s.stateOf actor).flags := by
  unfold Raised flags? stateOf
  cases s.actor? actor with
  | none => simp [ActorState.fresh]
  | some state => simp

/-- The rules of a session have an owner of the flag, and what is remembered of the owner for an
actor stands in a certain relation to the flags of the actor. -/
structure Owned (flag : String) (I : Option Verdict × Names → Prop) (s : Session) : Prop where
  current : s.trigger.Current
  hasOwner : s.trigger.ruleSet.HasOwner flag
  related : ∀ r, s.trigger.ruleSet.Owner flag r → ∀ actor, I (s.besideOf r.id actor)

variable {I : Option Verdict × Names → Prop}

/-- A relation that is kept while the flag follows the memory is kept by every call. Rules that are
loaded start without a memory, beside the flags that were raised before. -/
theorem Owned.step (hI : ∀ x y, I x → Flag.Follows flag x y → I y) (hs : Owned flag I s)
    {call : Event}
    (hcall : ∀ rules, call = .reload rules → rules.HasOwner flag ∧ ∀ flags, I (none, flags)) :
    Owned flag I (s.step call).2 := by
  cases call with
  | ingest actor f x =>
    obtain ⟨⟨c, hload⟩, howner⟩ := hs.hasOwner
    have hrules : (s.ingest actor f x).2.trigger.ruleSet = s.trigger.ruleSet :=
      Trigger.ruleSet_process s.trigger actor _
    refine ⟨hs.current.process actor _, ?_, ?_⟩
    · exact hrules ▸ hs.hasOwner
    · intro r hr other
      exact hI _ _ (hs.related r (hrules ▸ hr) other)
        (follows_ingest hs.current hload (hrules ▸ hr) actor f x other)
  | reload rules =>
    obtain ⟨howner, hnone⟩ := hcall rules rfl
    exact ⟨Trigger.current_reload s.trigger rules, howner, fun r _ actor => hnone _⟩
  | resize window => exact ⟨hs.current, hs.hasOwner, hs.related⟩

theorem owned_start (d : Deriver) {rules : RuleSet} (window : Int) (hrules : rules.HasOwner flag)
    (hI : I (none, [])) : Owned flag I (start d rules window) :=
  ⟨Trigger.current_start rules, hrules, fun _ _ _ => hI⟩

/-- **The flag shows what is remembered.** Let every rule set that a run loads have a rule that has the
flag to itself. After the run, for every actor, the flag is raised while that rule of the current
set is remembered to hold, and lowered while it is remembered to fail; and if the rules were never
replaced, it is lowered while nothing is remembered. -/
theorem flags_show_memory (flag : String) (d : Deriver) (rules : RuleSet) (window : Int)
    (calls : List Event) (hrules : rules.HasOwner flag)
    (hcalls : ∀ rules', .reload rules' ∈ calls → rules'.HasOwner flag) :
    let s := (run calls (start d rules window)).2
    ∃ r, s.trigger.ruleSet.Owner flag r ∧ ∀ actor,
      (s.trigger.memory.get? r.id actor = some .holds → s.Raised flag actor) ∧
      (s.trigger.memory.get? r.id actor = some .fails → ¬ s.Raised flag actor) ∧
      ((∀ rules', .reload rules' ∉ calls) →
        s.trigger.memory.get? r.id actor = none → ¬ s.Raised flag actor) := by
  intro s
  have hshows : Owned flag (Flag.Shows flag) s := by
    refine run_induction_of_mem (fun s' call hcall hs' => ?_) (owned_start d window hrules ?_)
    · refine hs'.step (fun _ _ hx => hx.follows) ?_
      rintro rules' rfl
      exact ⟨hcalls rules' hcall, fun _ => ⟨nofun, nofun⟩⟩
    · exact ⟨nofun, nofun⟩
  have hsilent (hnone : ∀ rules', .reload rules' ∉ calls) : Owned flag (Flag.Silent flag) s := by
    refine run_induction_of_mem (fun s' call hcall hs' => ?_) (owned_start d window hrules ?_)
    · refine hs'.step (fun _ _ hx => hx.follows) ?_
      rintro rules' rfl
      exact absurd hcall (hnone rules')
    · exact fun _ => List.not_mem_nil
  obtain ⟨r, hr⟩ := hshows.hasOwner.2
  refine ⟨r, hr, fun actor => ⟨fun hv => ?_, fun hv => ?_, fun hnone hv => ?_⟩⟩
  · exact raised_iff.mpr ((hshows.related r hr actor).raised hv)
  · exact mt raised_iff.mp ((hshows.related r hr actor).lowered hv)
  · exact mt raised_iff.mp ((hsilent hnone).related r hr actor hv)

end Session

/-- A rule that has a flag to itself. -/
def Rule.lamp : Rule where
  id := "lamp"
  title := "Lamp"
  filter := ⟨none, []⟩
  all := some [.leaf ⟨.field "lamp", .compare .eq (.bool true)⟩]
  any := none
  onRise := [.setFlag "LAMP"]
  onFall := [.clearFlag "LAMP"]

/-- A rule with another flag. -/
def Rule.horn : Rule where
  id := "horn"
  title := "Horn"
  filter := ⟨none, []⟩
  all := some [.leaf ⟨.field "horn", .compare .eq (.bool true)⟩]
  any := none
  onRise := [.setFlag "HORN"]
  onFall := []

/-- These two rules. -/
def lamps (generation : Nat) : RuleSet := ⟨generation, [.lamp, .horn]⟩

/-- Whether rules are these two. -/
def areLamps : List Rule → Bool
  | [⟨"lamp", "Lamp", ⟨none, []⟩, some [.leaf ⟨.field "lamp", .compare .eq (.bool true)⟩], none,
      [.setFlag "LAMP"], [.clearFlag "LAMP"]⟩,
    ⟨"horn", "Horn", ⟨none, []⟩, some [.leaf ⟨.field "horn", .compare .eq (.bool true)⟩], none,
      [.setFlag "HORN"], []⟩] => true
  | _ => false

theorem eq_of_areLamps {rules : List Rule} (h : areLamps rules = true) : rules = [.lamp, .horn] := by
  unfold areLamps at h
  split at h
  · rfl
  · cases h

theorem loaded_lamps (generation : Nat) : (lamps generation).Loaded ⟨1, ⟨[], []⟩, []⟩ := by
  have hload : (Rule.listOfText ⟨1, ⟨[], []⟩, []⟩ ("rules:\n- title: Lamp\n  when:\n    all:\n" ++
      "    - field: lamp\n      eq: true\n  then:\n  - type: set_flag\n    token: LAMP\n" ++
      "  else:\n  - type: clear_flag\n    token: LAMP\n- title: Horn\n  when:\n    all:\n" ++
      "    - field: horn\n      eq: true\n  then:\n  - type: set_flag\n" ++
      "    token: HORN\n")).toOption.any areLamps = true := by
    decide +kernel
  obtain ⟨rules, hrules, hlamps⟩ := exists_of_any_toOption hload
  exact ⟨_, eq_of_areLamps hlamps ▸ hrules⟩

theorem hasOwner_lamps (generation : Nat) : (lamps generation).HasOwner "LAMP" :=
  ⟨⟨_, loaded_lamps generation⟩, .lamp, rfl, by decide⟩

/-- A frame that tells of one thing. -/
def Frame.telling (field : String) (value : Json) : Frame :=
  ⟨.dashboard, none, ⟨0, 0⟩, .object [(field, value)]⟩

theorem Session.flags_show_memory_lamp :
    let calls : List Event := [
      .ingest "a" (Frame.telling "lamp" (.bool true)) .absent,
      .reload (lamps 2),
      .ingest "b" (Frame.telling "lamp" (.bool true)) .absent,
      .ingest "b" (Frame.telling "horn" (.bool true)) .absent]
    let s := (run calls (start ⟨⟨1, ⟨[], []⟩, []⟩, .absent⟩ (lamps 1) 0)).2
    (lamps 1).HasOwner "LAMP" ∧ (∀ rules, .reload rules ∈ calls → rules.HasOwner "LAMP") ∧
    s.trigger.memory.get? "lamp" "b" = some .holds ∧ s.Raised "LAMP" "b" ∧
    s.trigger.memory.get? "lamp" "a" = none ∧ s.Raised "LAMP" "a" := by
  intro calls s
  have hcalls : ∀ rules, .reload rules ∈ calls → rules.HasOwner "LAMP" := by
    intro rules hmem
    have hrules : rules = lamps 2 := by simpa [calls] using hmem
    exact hrules ▸ hasOwner_lamps 2
  obtain ⟨r, hr, hshows⟩ := flags_show_memory "LAMP" ⟨⟨1, ⟨[], []⟩, []⟩, .absent⟩ (lamps 1) 0
    calls (hasOwner_lamps 1) hcalls
  have hid : r.id = "lamp" := by
    have hids : (s.trigger.ruleSet.rules.filter (·.mentions "LAMP")).map (·.id) = ["lamp"] := by
      decide +kernel
    have halone : s.trigger.ruleSet.rules.filter (·.mentions "LAMP") = [r] := hr.alone
    rw [halone] at hids
    exact List.head_eq_of_cons_eq hids
  have hholds : s.trigger.memory.get? "lamp" "b" = some .holds := by decide +kernel
  refine ⟨hasOwner_lamps 1, hcalls, hholds, ?_, by decide +kernel, ?_⟩
  · rw [← hid] at hholds
    exact (hshows "b").1 hholds
  -- what was raised before the rules were replaced stays raised
  · have hflags : s.flags? "a" = some ["LAMP"] := by decide +kernel
    exact ⟨["LAMP"], hflags, List.mem_singleton_self _⟩

end Telltale
