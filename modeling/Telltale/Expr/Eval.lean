import Telltale.Catalog
import Telltale.Combiner
import Telltale.Scene

/-!
# Evaluating expressions

An expression has a value on a scene, or none when the scene lacks what the expression asks for.
Conditions are decided by the truth of the value and stay undecided without one; an undecided term
leaves a conjunction or disjunction undecided unless another term settles it.

* `Expr.eval` is the value of an expression.
* `Expr.decide` is its truth.
-/

namespace Telltale.Expr

/-- The path and the index of the bit that an expression asks for. -/
def bitTarget? (v : Vocabulary) (path group : Option String) (bit : BitRef) :
    Option (String × Nat) :=
  match group, path, bit with
  | some g, _, _ => v.resolveBit? g bit
  | none, some p, .index i => some (p, i)
  | none, _, _ => none

/-- The value of one bit. -/
def bitAt? (s : Scene) (target : String × Nat) : Option Json :=
  (s.flagWord? target.1).map fun word => Json.ofNat (bit word target.2)

/-- Whether an event is one that an expression asks for. -/
def matchesEvent (v : Vocabulary) (name : String) (category : Option String) (event : String) :
    Bool :=
  if name = anyEvent then
    match category with
    | some c => ((v.category? c).getD []).contains event
    | none => true
  else name == event

/-- What an expression reads from the frame's event, if the event is one that it asks for. -/
def eventValue? (v : Vocabulary) (s : Scene) (name : String) (field category : Option String) :
    Option Json := do
  let event ← s.frame.eventName?
  if matchesEvent v name category event then
    match field with
    | some p => s.lookup p
    | none => some (.string event)
  else none

mutual

/-- The value of an expression. -/
def eval (v : Vocabulary) (cs : Combiners) (s : Scene) : Expr → Option Json
  | .path p default => (s.lookup p).or default
  | .bitfield p group bit default => ((bitTarget? v p group bit).bind (bitAt? s)).or default
  | .map input table default =>
    (((eval v cs s input).bind Json.key?).bind (Table.get? table)).or default
  | .event name field category default => (eventValue? v s name field category).or default
  | .firstMatch cases default => evalCases v cs s default cases
  | .all terms => (decideAll v cs s false terms).map .bool
  | .any terms => (decideAny v cs s false terms).map .bool
  | .not term => (eval v cs s term).map fun t => .bool (!Json.truthy (some t))
  | .recent name within => some (.bool (s.recency.within name within s.now))
  | .compare input comparison value =>
    ((eval v cs s input).bind fun a => comparison.apply a value).map .bool
  | .literal value => some value
  | .combine combiner inputs => (cs combiner).bind fun f => f (evalEach v cs s inputs)

/-- The value of the first case whose condition is true, up to the first undecided one. -/
def evalCases (v : Vocabulary) (cs : Combiners) (s : Scene) (default : Option Json) :
    List (Expr × Json) → Option Json
  | [] => default
  | (condition, value) :: rest =>
    match eval v cs s condition with
    | none => none
    | some t => if Json.truthy (some t) then some value else evalCases v cs s default rest

/-- Conjunction: the first false term settles it, and otherwise an undecided one leaves it
undecided. -/
def decideAll (v : Vocabulary) (cs : Combiners) (s : Scene) (undecided : Bool) :
    List Expr → Option Bool
  | [] => if undecided then none else some true
  | term :: rest =>
    match eval v cs s term with
    | none => decideAll v cs s true rest
    | some t => if Json.truthy (some t) then decideAll v cs s undecided rest else some false

/-- Disjunction: the first true term settles it, and otherwise an undecided one leaves it
undecided. -/
def decideAny (v : Vocabulary) (cs : Combiners) (s : Scene) (undecided : Bool) :
    List Expr → Option Bool
  | [] => if undecided then none else some false
  | term :: rest =>
    match eval v cs s term with
    | none => decideAny v cs s true rest
    | some t => if Json.truthy (some t) then some true else decideAny v cs s undecided rest

/-- The values of expressions in a row. -/
def evalEach (v : Vocabulary) (cs : Combiners) (s : Scene) : List Expr → List (Option Json)
  | [] => []
  | e :: rest => eval v cs s e :: evalEach v cs s rest

end

/-- The truth of an expression, if it has a value. -/
def decide (v : Vocabulary) (cs : Combiners) (s : Scene) (e : Expr) : Option Bool :=
  (eval v cs s e).map fun t => Json.truthy (some t)

end Telltale.Expr
