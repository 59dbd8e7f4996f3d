import Telltale.Comparison
import Telltale.Source
import Telltale.Expr

/-!
# Rules

A rule is a condition on frames with the actions for when it begins to hold and for when it ceases
to. A filter on the source and the event of a frame comes before the condition.

* `Condition` is a tree of groups over leaves; a `Leaf` tests one operand.
* `Filter.accepts` is whether a rule looks at a frame at all.
-/

namespace Telltale

/-! ### Actions -/

/-- What is to be done. Flags are raised and lowered by the session; the others are up to its
caller. -/
inductive Action where
  | setFlag (token : String)
  | clearFlag (token : String)
  | log (message : String)
  | emit (name : String) (payload : Json)

/-- The value that documents write for an action. A payload of null is left out. -/
def Action.toJson : Action → Json
  | .setFlag token => .object [("type", .string "set_flag"), ("token", .string token)]
  | .clearFlag token => .object [("type", .string "clear_flag"), ("token", .string token)]
  | .log message => .object [("type", .string "log"), ("message", .string message)]
  | .emit name payload =>
    .object (("type", .string "emit") :: ("name", .string name) ::
      Expr.optionField "payload" (fun v => v) payload.nonNull?)

/-! ### Conditions -/

/-- What a leaf looks at: a signal, a field of the documents, or the word of a flag group. -/
inductive Operand where
  | signal (id : String)
  | field (path : String)
  | flags (group path : String)

/-- What a leaf asks of its operand. -/
inductive Test where
  | compare (comparison : Comparison) (value : Json)
  | oneOf (values : List Json)
  | bits (allOf anyOf noneOf : List Nat)

/-- A test of one operand. -/
structure Leaf where
  operand : Operand
  test : Test

/-- A condition. -/
inductive Condition where
  | all (members : List Condition)
  | any (members : List Condition)
  | leaf (leaf : Leaf)

namespace Condition

mutual

/-- The leaves of a condition, in order. -/
def leaves : Condition → List Leaf
  | .all members => leavesOf members
  | .any members => leavesOf members
  | .leaf l => [l]

/-- The leaves of conditions in a row. -/
def leavesOf : List Condition → List Leaf
  | [] => []
  | c :: rest => leaves c ++ leavesOf rest

end

end Condition

/-! ### Filters -/

/-- The frames that a rule looks at: those of one source, those with one of some events. -/
structure Filter where
  source : Option Source
  events : List String

namespace Filter

/-- Whether the filter lets every frame through. -/
def isEmpty (f : Filter) : Bool := f.source.isNone && f.events.isEmpty

/-- Whether the filter lets the frames of a source with an event through. -/
def accepts (f : Filter) (source : Source) (event : Option String) : Bool :=
  f.source.all (· == source) && (f.events.isEmpty || event.any f.events.contains)

end Filter

/-! ### Rules -/

/-- A rule. Both groups of conditions have to hold, where there are both. -/
structure Rule where
  id : String
  title : String
  filter : Filter
  all : Option (List Condition)
  any : Option (List Condition)
  onRise : List Action
  onFall : List Action

/-- The leaves of a rule, in order. -/
def Rule.leaves (r : Rule) : List Leaf :=
  Condition.leavesOf (r.all.getD []) ++ Condition.leavesOf (r.any.getD [])

end Telltale
