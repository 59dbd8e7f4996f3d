import Telltale.Rule.Document
import Telltale.Rule.Judge

/-!
# Triggers

A rule triggers its actions when its verdict changes, and not as long as it stays the same. For that
the last definite verdict of every rule is remembered, separately for every actor.

* `Memory` is what is remembered; it belongs to one generation of rules.
* `Trigger.dispatch` takes one verdict in, `Trigger.process` judges all rules on one frame.
* `Trigger.reload` changes the rules and forgets everything.
-/

namespace Telltale

/-! ### Batches -/

/-- The way a verdict changed. -/
inductive Edge where
  | rising
  | falling
  deriving DecidableEq

/-- The name of an edge. -/
def Edge.name : Edge → String
  | .rising => "rising"
  | .falling => "falling"

/-- The actions of one change of one rule, in the order of declaration. -/
structure Batch where
  rule : String
  actor : String
  edge : Edge
  actions : List Action

/-- The value that a batch is written as. -/
def Batch.toJson (b : Batch) : Json :=
  .object [("rule_id", .string b.rule), ("actor", .string b.actor), ("edge", .string b.edge.name),
    ("actions", .array (b.actions.map Action.toJson))]

/-! ### Memory -/

/-- The last definite verdicts, by rule and actor, under one generation of rules. -/
structure Memory where
  generation : Nat
  verdicts : List ((String × String) × Verdict)

namespace Memory

/-- Nothing remembered. -/
def empty (generation : Nat) : Memory := ⟨generation, []⟩

/-- The verdict remembered of a rule for an actor. -/
def get? (m : Memory) (rule actor : String) : Option Verdict := m.verdicts.lookup (rule, actor)

/-- Remembers a verdict in place of an earlier one. -/
def set (m : Memory) (rule actor : String) (v : Verdict) : Memory :=
  ⟨m.generation, ((rule, actor), v) :: m.verdicts.filter (·.1 ≠ (rule, actor))⟩

/-- Forgets one actor. -/
def forgetActor (m : Memory) (actor : String) : Memory :=
  ⟨m.generation, m.verdicts.filter (·.1.2 ≠ actor)⟩

/-- The number of verdicts remembered. -/
def size (m : Memory) : Nat := m.verdicts.length

end Memory

/-! ### Triggers -/

/-- A set of rules with the memory of their verdicts. -/
structure Trigger where
  ruleSet : RuleSet
  memory : Memory

namespace Trigger

/-- A trigger that remembers nothing. -/
def start (rules : RuleSet) : Trigger := ⟨rules, .empty rules.generation⟩

/-- Changes the rules. What was remembered of others means nothing for them. -/
def reload (_ : Trigger) (rules : RuleSet) : Trigger := start rules

/-- The memory under the generation of the rules; one of another generation is void. -/
def currentMemory (t : Trigger) : Memory :=
  if t.memory.generation = t.ruleSet.generation then t.memory else .empty t.ruleSet.generation

/-- The edge of a definite verdict, and the actions of a rule for it. -/
def edgeActions? (r : Rule) : Verdict → Option (Edge × List Action)
  | .holds => some (.rising, r.onRise)
  | .fails => some (.falling, r.onFall)
  | .undecided => none

/-- The batch of a change to a verdict, if there is anything to do. -/
def batch? (r : Rule) (actor : String) (v : Verdict) : Option Batch :=
  match edgeActions? r v with
  | some (edge, actions) => if actions.isEmpty then none else some ⟨r.id, actor, edge, actions⟩
  | none => none

/-- Takes in the verdict of a rule for an actor. An undecided one changes nothing, and neither does
the one that is remembered. -/
def dispatch (t : Trigger) (r : Rule) (actor : String) (v : Verdict) : Option Batch × Trigger :=
  if !v.isDefinite then (none, t)
  else
    let memory := t.currentMemory
    if memory.get? r.id actor = some v then (none, ⟨t.ruleSet, memory⟩)
    else (batch? r actor v, ⟨t.ruleSet, memory.set r.id actor v⟩)

/-- Judges rules in a row and takes the verdicts in. -/
def processEach (actor : String) (e : Evidence) : List Rule → Trigger → List Batch × Trigger
  | [], t => ([], t)
  | r :: rest, t =>
    let (batch, t) := t.dispatch r actor (r.judge e)
    let (batches, t) := processEach actor e rest t
    (batch.toList ++ batches, t)

/-- Judges all rules on one frame and takes the verdicts in, in order. -/
def process (t : Trigger) (actor : String) (e : Evidence) : List Batch × Trigger :=
  processEach actor e t.ruleSet.rules t

end Trigger

end Telltale
