import Telltale.Proofs.Rule.Evidence

/-!
# Rules as formulas of Kleene's logic

Groups of conditions are judged member by member, and not further than it takes to settle them. What
comes of a rule is still the value of its condition as a formula over the verdicts of all its leaves:
a group of the one kind is the least of its members, one of the other kind the greatest.

* `Condition.kleene`, `Rule.kleene` — the value of a formula. It is taken over sets of verdicts.
* `Condition.judge_eq_kleene`, `Rule.judgeCondition_eq_kleene` — it is what a condition is judged.
* `Condition.Rearranged`, `Rule.Rearranged` — conditions that differ in the order, the repetition and
  the nesting of members, at any depth.
* `Rule.judge_kleene` — a rule that lets a frame through is judged the value of its formula, and
  rearranging it changes no verdict.
-/

namespace Telltale

namespace Condition

/-! ## Formulas -/

mutual

/-- The value of a condition as a formula, from verdicts of its leaves. -/
def kleene (value : Leaf → Verdict) : Condition → Verdict
  | .all members => (kleeneSet value members).inf id
  | .any members => (kleeneSet value members).sup id
  | .leaf l => value l

/-- The values of some conditions. -/
def kleeneSet (value : Leaf → Verdict) : List Condition → Finset Verdict
  | [] => ∅
  | c :: rest => insert (kleene value c) (kleeneSet value rest)

end

mutual

/-- A condition is judged its value as a formula over the verdicts of its leaves. -/
theorem judge_eq_kleene (e : Evidence) : ∀ c : Condition, judge e c = kleene (·.judge e) c
  | .all members => by rw [judge, kleene, Verdict.all_eq_inf, toFinset_judgeEach e members]
  | .any members => by rw [judge, kleene, Verdict.any_eq_sup, toFinset_judgeEach e members]
  | .leaf l => by rw [judge, kleene]

theorem toFinset_judgeEach (e : Evidence) : ∀ cs : List Condition,
    (judgeEach e cs).toFinset = kleeneSet (·.judge e) cs
  | [] => by rw [judgeEach, kleeneSet, List.toFinset_nil]
  | c :: rest => by
    rw [judgeEach, kleeneSet, List.toFinset_cons, judge_eq_kleene e c, toFinset_judgeEach e rest]

end

/-! ## Rearranging -/

/-- The two kinds of groups. -/
inductive IsGroup : (List Condition → Condition) → Prop where
  | all : IsGroup .all
  | any : IsGroup .any

/-- Two conditions differ in the order, the repetition and the nesting of members of groups. A group
within a group of the same kind may be taken apart. -/
inductive Rearranged : Condition → Condition → Prop where
  | refl (c : Condition) : Rearranged c c
  | symm {c c' : Condition} (h : Rearranged c c') : Rearranged c' c
  | trans {c c' c'' : Condition} (h : Rearranged c c') (h' : Rearranged c' c'') : Rearranged c c''
  | permuted {group : List Condition → Condition} {members members' : List Condition}
    (hgroup : IsGroup group) (h : members.Perm members') :
    Rearranged (group members) (group members')
  | repeated {group : List Condition → Condition} {c : Condition} {members : List Condition}
    (hgroup : IsGroup group) (h : c ∈ members) : Rearranged (group (c :: members)) (group members)
  | spliced {group : List Condition → Condition} {before inner after : List Condition}
    (hgroup : IsGroup group) :
    Rearranged (group (before ++ group inner :: after)) (group (before ++ inner ++ after))
  | inside {group : List Condition → Condition} {before after : List Condition} {c c' : Condition}
    (hgroup : IsGroup group) (h : Rearranged c c') :
    Rearranged (group (before ++ c :: after)) (group (before ++ c' :: after))

/-- A group of either kind joins the verdicts of its members. -/
theorem IsGroup.exists_join {group : List Condition → Condition} (h : IsGroup group)
    (e : Evidence) : ∃ join, Verdict.IsConnective join ∧
      ∀ members : List Condition, judge e (group members) = join (members.map (judge e)) := by
  cases h with
  | all => exact ⟨_, Verdict.isConnective_all, fun members => by rw [judge, judgeEach_eq_map]⟩
  | any => exact ⟨_, Verdict.isConnective_any, fun members => by rw [judge, judgeEach_eq_map]⟩

theorem Rearranged.judge_eq {c c' : Condition} (h : Rearranged c c') (e : Evidence) :
    judge e c = judge e c' := by
  induction h with
  | refl c => rfl
  | symm _ ih => exact ih.symm
  | trans _ _ ih ih' => exact ih.trans ih'
  | permuted hgroup h =>
    obtain ⟨join, hjoin, heq⟩ := hgroup.exists_join e
    rw [heq, heq]
    exact hjoin.same_members fun v => (h.map (judge e)).mem_iff
  | repeated hgroup h =>
    obtain ⟨join, hjoin, heq⟩ := hgroup.exists_join e
    rw [heq, heq, List.map_cons]
    refine hjoin.same_members fun v => List.mem_cons.trans (or_iff_right_of_imp ?_)
    rintro rfl
    exact List.mem_map_of_mem h
  | spliced hgroup =>
    obtain ⟨join, hjoin, heq⟩ := hgroup.exists_join e
    rw [heq, heq, List.map_append, List.map_cons, heq, hjoin.splice, List.map_append,
      List.map_append]
  | inside hgroup _ ih =>
    obtain ⟨join, -, heq⟩ := hgroup.exists_join e
    rw [heq, heq, List.map_append, List.map_cons, ih, List.map_append, List.map_cons]

end Condition

/-! ## Rules -/

namespace Rule

/-- The value of the condition of a rule as a formula. Both groups have to hold, where there are
both, and without any group nothing is decided. -/
def kleene (value : Leaf → Verdict) (r : Rule) : Verdict :=
  match r.all, r.any with
  | some all, some any =>
    min (Condition.kleene value (.all all)) (Condition.kleene value (.any any))
  | some all, none => Condition.kleene value (.all all)
  | none, some any => Condition.kleene value (.any any)
  | none, none => .undecided

theorem judgeCondition_eq_kleene (r : Rule) (e : Evidence) :
    r.judgeCondition e = r.kleene (·.judge e) := by
  unfold judgeCondition kleene
  cases r.all with
  | none =>
    cases r.any with
    | none => rfl
    | some any => exact Condition.judge_eq_kleene e (.any any)
  | some all =>
    cases r.any with
    | none => exact Condition.judge_eq_kleene e (.all all)
    | some any =>
      show (Condition.judge e (.all all)).both (Condition.judge e (.any any)) = min _ _
      rw [Verdict.both_eq_min, Condition.judge_eq_kleene, Condition.judge_eq_kleene]

/-- Two rules differ in how the members of their groups are arranged, or in that the second group of
one stands as a member in the first group of the other. -/
inductive Rearranged : Rule → Rule → Prop where
  | refl (r : Rule) : Rearranged r r
  | symm {r r' : Rule} (h : Rearranged r r') : Rearranged r' r
  | trans {r r' r'' : Rule} (h : Rearranged r r') (h' : Rearranged r' r'') : Rearranged r r''
  | all (r : Rule) {members members' : List Condition}
    (h : Condition.Rearranged (.all members) (.all members')) :
    Rearranged { r with all := some members } { r with all := some members' }
  | any (r : Rule) {members members' : List Condition}
    (h : Condition.Rearranged (.any members) (.any members')) :
    Rearranged { r with any := some members } { r with any := some members' }
  | merged (r : Rule) (all any : List Condition) :
    Rearranged { r with all := some all, any := some any }
      { r with all := some (all ++ [.any any]), any := none }

/-- Rearranging changes neither the filter nor what comes of the condition. -/
theorem Rearranged.judge_eq {r r' : Rule} (h : Rearranged r r') (e : Evidence) :
    r.judge e = r'.judge e := by
  induction h with
  | refl r => rfl
  | symm _ ih => exact ih.symm
  | trans _ _ ih ih' => exact ih.trans ih'
  | all r h =>
    have hgroup := h.judge_eq e
    simp only [Condition.judge] at hgroup
    cases r.any <;> simp only [judge, judgeCondition, hgroup]
  | any r h =>
    have hgroup := h.judge_eq e
    simp only [Condition.judge] at hgroup
    cases r.all <;> simp only [judge, judgeCondition, hgroup]
  | merged r all any =>
    have hmerged : Verdict.all (Condition.judgeEach e (all ++ [.any any])) =
        (Verdict.all (Condition.judgeEach e all)).both (Verdict.any (Condition.judgeEach e any)) := by
      rw [Condition.judgeEach_eq_map, Condition.judgeEach_eq_map, List.map_append,
        Verdict.all_append, List.map_singleton, Verdict.all_singleton, Condition.judge]
    simp only [judge, judgeCondition, hmerged]

/-- **The verdict of a rule is that of its condition in Kleene's logic.** A rule that lets a frame
through is judged the value of its condition as a formula over the verdicts of all its leaves, and
one that does not fails. So the verdict stays as it is when the members of groups are permuted or
repeated, when groups are taken apart that stand in groups of the same kind, both at any depth, and
when the second group of the rule becomes a member of the first. -/
theorem judge_kleene (r : Rule) (e : Evidence) :
    r.judge e = (if r.filter.accepts e.frame.source e.frame.eventName? then r.kleene (·.judge e)
      else .fails) ∧
    ∀ r', Rearranged r r' → r'.judge e = r.judge e := by
  refine ⟨?_, fun r' h => (h.judge_eq e).symm⟩
  rw [judge, judgeCondition_eq_kleene]

end Rule

/-- The rule on three signals with its groups made one, its members in another order, and one of them
said twice. -/
def Rule.readyInOne : Rule where
  id := "ready"
  title := "Ready"
  filter := ⟨some .dashboard, []⟩
  all := some [.any [.leaf ⟨.signal "shields", .compare .ne (.string "down")⟩,
      .leaf ⟨.signal "fuel", .compare .gt (.number .zero)⟩,
      .leaf ⟨.signal "shields", .compare .ne (.string "down")⟩],
    .leaf ⟨.signal "docked", .compare .eq (.bool true)⟩]
  any := none
  onRise := [.setFlag "READY"]
  onFall := []

/-- With the fuel unknown, the shields settle the matter. -/
theorem Rule.judge_kleene_ready :
    let e : Evidence := .ofSnapshot [⟨"docked", .bool true, false⟩, ⟨"fuel", .number .zero, true⟩,
      ⟨"shields", .string "up", false⟩]
    ready.leaves.map (·.judge e) = [.holds, .undecided, .holds] ∧
    Rearranged ready readyInOne ∧ ready.judge e = .holds ∧ readyInOne.judge e = .holds := by
  intro e
  let docked : Condition := .leaf ⟨.signal "docked", .compare .eq (.bool true)⟩
  let fuel : Condition := .leaf ⟨.signal "fuel", .compare .gt (.number .zero)⟩
  let shields : Condition := .leaf ⟨.signal "shields", .compare .ne (.string "down")⟩
  have hany : Condition.Rearranged (.any [fuel, shields]) (.any [shields, fuel, shields]) :=
    .symm (.repeated .any (List.mem_cons_of_mem _ List.mem_cons_self))
  have hall : Condition.Rearranged (.all [docked, .any [fuel, shields]])
      (.all [.any [shields, fuel, shields], docked]) :=
    .trans (.permuted .all (.swap _ _ _)) (@Condition.Rearranged.inside _ [] [docked] _ _ .all hany)
  have hready : Rearranged ready readyInOne :=
    .trans (.merged ready [docked] [fuel, shields]) (.all readyInOne hall)
  obtain ⟨hkleene, hrearranged⟩ := judge_kleene ready e
  have hholds : ready.judge e = .holds := hkleene.trans (by decide +kernel)
  exact ⟨by decide +kernel, hready, hholds, (hrearranged _ hready).trans hholds⟩

end Telltale
