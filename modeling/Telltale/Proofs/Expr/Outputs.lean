import Telltale.Expr.Eval

/-!
# What expressions hand back

`Expr.outputs` lists literals that an expression can hand back, without looking at a scene.

* `Expr.Fetched` — a value that an expression hands back and that is no literal of it: it was read
  from the frame or the documents beside it, is the name of the frame's event, or came from a
  combiner. Only expressions that are not closed fetch values (`Fetched.not_closed`).
* `Expr.eval_mem_outputs` — every value of an expression is one of its literals or fetched.
-/

namespace Telltale

theorem bit_eq_zero_or_one (word : BitVec 64) (i : Nat) : bit word i = 0 ∨ bit word i = 1 := by
  unfold bit
  cases word.getLsbD i with
  | false => exact .inl rfl
  | true => exact .inr rfl

namespace Expr

/-- A value that an expression takes from elsewhere: it is found at a path, is the name of an event
that the expression asks for, or is what a combiner makes of the inputs. -/
inductive Fetched (v : Vocabulary) (cs : Combiners) (s : Scene) : Expr → Json → Prop where
  | found {p : String} {default : Option Json} {value : Json} (hvalue : s.lookup p = some value) :
    Fetched v cs s (.path p default) value
  | inEvent {name p event : String} {category : Option String} {default : Option Json} {value : Json}
    (hevent : s.frame.eventName? = some event)
    (hmatches : matchesEvent v name category event = true) (hvalue : s.lookup p = some value) :
    Fetched v cs s (.event name (some p) category default) value
  | event {name event : String} {category : Option String} {default : Option Json}
    (hevent : s.frame.eventName? = some event)
    (hmatches : matchesEvent v name category event = true) :
    Fetched v cs s (.event name none category default) (.string event)
  | combined {combiner : String} {f : Combiner} {inputs : List Expr} {value : Json}
    (hf : cs combiner = some f) (hvalue : f (evalEach v cs s inputs) = some value) :
    Fetched v cs s (.combine combiner inputs) value

variable {v : Vocabulary} {cs : Combiners} {s : Scene} {value : Json}

theorem Fetched.not_closed {e : Expr} (h : Fetched v cs s e value) : e.outputs.closed = false := by
  cases h <;> rfl

/-- The operations at the root of an expression that fetches a value. -/
theorem Fetched.kind_mem {e : Expr} (h : Fetched v cs s e value) :
    e.kind ∈ ["path", "journal_event", "combine"] := by
  cases h <;> simp [kind]

/-! ## Values and defaults -/

/-- What an operation with a default hands back came about without it, or is the default. -/
theorem of_or_eq_some {x default : Option Json} (h : x.or default = some value) :
    x = some value ∨ value ∈ default.toList := by
  cases x with
  | some a => exact .inl h
  | none => exact .inr (Option.mem_toList.mpr h)

theorem mem_of_bitAt? {target : String × Nat} (h : bitAt? s target = some value) :
    value ∈ [Json.number .zero, .number .one] := by
  obtain ⟨word, -, rfl⟩ := Option.map_eq_some_iff.mp h
  rcases bit_eq_zero_or_one word target.2 with hbit | hbit
  · rw [hbit]
    exact List.mem_cons_self
  · rw [hbit]
    exact List.mem_cons_of_mem _ List.mem_cons_self

theorem fetched_of_eventValue? {name : String} {field category : Option String}
    {default : Option Json} (h : eventValue? v s name field category = some value) :
    Fetched v cs s (.event name field category default) value := by
  obtain ⟨event, hevent, h⟩ := Option.bind_eq_some_iff.mp h
  split at h
  · next hmatches =>
    cases field with
    | none => cases h; exact .event hevent hmatches
    | some p => exact .inEvent hevent hmatches h
  · cases h

/-- Cases hand back the value of one of them, or the default. -/
theorem mem_of_evalCases {default : Option Json} {cases : List (Expr × Json)}
    (h : evalCases v cs s default cases = some value) :
    value ∈ cases.map (·.2) ++ default.toList := by
  induction cases with
  | nil => exact Option.mem_toList.mpr h
  | cons c rest ih =>
    obtain ⟨condition, result⟩ := c
    simp only [evalCases] at h
    split at h
    · cases h
    · split at h
      · cases h
        exact List.mem_cons_self
      · exact List.mem_cons_of_mem _ (ih h)

/-- The values of the connectives and of the other tests. -/
theorem mem_of_map_bool {x : Option Bool} (h : x.map Json.bool = some value) :
    value ∈ [Json.bool true, .bool false] := by
  obtain ⟨b, -, rfl⟩ := Option.map_eq_some_iff.mp h
  cases b <;> simp

/-! ## Values and literals -/

/-- **Every value of an expression is one of its literals or fetched**, on every scene, whatever
the combiners are. -/
theorem eval_mem_outputs {e : Expr} (h : e.eval v cs s = some value) :
    value ∈ e.outputs.literals ∨ Fetched v cs s e value := by
  -- what is inside an expression decides which value it hands back, but is never handed back
  -- itself, so there is no induction
  cases e with
  | path p default =>
    simp only [eval] at h
    exact (of_or_eq_some h).symm.imp_right .found
  | bitfield p group b default =>
    simp only [eval] at h
    refine .inl (List.mem_append.mpr ((of_or_eq_some h).imp_left fun h => ?_))
    obtain ⟨target, -, hbit⟩ := Option.bind_eq_some_iff.mp h
    exact mem_of_bitAt? hbit
  | map input table default =>
    simp only [eval] at h
    refine .inl (List.mem_append.mpr ((of_or_eq_some h).imp_left fun h => ?_))
    obtain ⟨key, -, hget⟩ := Option.bind_eq_some_iff.mp h
    exact Table.mem_values_of_get? hget
  | event name field category default =>
    simp only [eval] at h
    exact (of_or_eq_some h).symm.imp_right fetched_of_eventValue?
  | firstMatch cases default =>
    simp only [eval] at h
    exact .inl (mem_of_evalCases h)
  | all terms | any terms =>
    simp only [eval] at h
    exact .inl (mem_of_map_bool h)
  | not term =>
    simp only [eval] at h
    obtain ⟨t, -, rfl⟩ := Option.map_eq_some_iff.mp h
    exact .inl (mem_of_map_bool (x := some (!Json.truthy (some t))) rfl)
  | recent name within =>
    simp only [eval] at h
    exact .inl (mem_of_map_bool (x := some (s.recency.within name within s.now)) h)
  | compare input comparison w =>
    simp only [eval] at h
    exact .inl (mem_of_map_bool h)
  | literal w =>
    simp only [eval] at h
    cases h
    exact .inl List.mem_cons_self
  | combine combiner inputs =>
    simp only [eval] at h
    obtain ⟨f, hf, hvalue⟩ := Option.bind_eq_some_iff.mp h
    exact .inr (.combined hf hvalue)

end Expr

end Telltale
