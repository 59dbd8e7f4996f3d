import Telltale.Comparison

/-!
# Expressions

An expression says how the value of a signal is computed from one frame. The operations are a closed
set; `combine` alone hands its inputs to a function that is registered under a name.

* `Expr.subterms` lists an expression and every one inside it, parents first.
* `Expr.outputs` lists the literals that an expression can hand back, and says whether it can hand
  back anything else.
* `Expr.toJson` writes an expression.
-/

namespace Telltale

/-- A bit of a flag word, by its index or by its name in a flag group. -/
inductive BitRef where
  | index (i : Nat)
  | name (s : String)
  deriving DecidableEq

/-- The name that stands for every event. -/
def anyEvent : String := "*"

/-- An expression. -/
inductive Expr where
  /-- The value at a path. -/
  | path (path : String) (default : Option Json)
  /-- One bit of the word at a path, or of the word of a flag group. -/
  | bitfield (path group : Option String) (bit : BitRef) (default : Option Json)
  /-- The value of a table under the key of the input's result. -/
  | map (input : Expr) (table : List (String × Json)) (default : Option Json)
  /-- A field of the frame, or the event's name, if the frame carries a matching event. -/
  | event (name : String) (field category : Option String) (default : Option Json)
  /-- The value of the first case whose condition is true. -/
  | firstMatch (cases : List (Expr × Json)) (default : Option Json)
  /-- Conjunction. -/
  | all (terms : List Expr)
  /-- Disjunction. -/
  | any (terms : List Expr)
  /-- Negation. -/
  | not (term : Expr)
  /-- Whether an event was seen no longer ago than a number of seconds. -/
  | recent (event : String) (within : Extended)
  /-- A comparison of the input's result with a value. -/
  | compare (input : Expr) (comparison : Comparison) (value : Json)
  /-- A fixed value. -/
  | literal (value : Json)
  /-- The result of a registered function for the results of the inputs. -/
  | combine (combiner : String) (inputs : List Expr)

namespace Expr

/-- The name of the operation, as documents write it. -/
def kind : Expr → String
  | .path .. => "path"
  | .bitfield .. => "bitfield"
  | .map .. => "map"
  | .event .. => "journal_event"
  | .firstMatch .. => "first_match"
  | .all .. => "and"
  | .any .. => "or"
  | .not .. => "not"
  | .recent .. => "recent"
  | .compare .. => "compare"
  | .literal .. => "literal"
  | .combine .. => "combine"

/-! ### Subterms -/

mutual

/-- The expression and every one inside it, parents first. -/
def subterms : Expr → List Expr
  | .map input table default => .map input table default :: subterms input
  | .compare input c v => .compare input c v :: subterms input
  | .not term => .not term :: subterms term
  | .firstMatch cases default => .firstMatch cases default :: subtermsOfCases cases
  | .all terms => .all terms :: subtermsOfTerms terms
  | .any terms => .any terms :: subtermsOfTerms terms
  | .combine combiner inputs => .combine combiner inputs :: subtermsOfTerms inputs
  | e => [e]

/-- The subterms of expressions in a row. -/
def subtermsOfTerms : List Expr → List Expr
  | [] => []
  | e :: rest => subterms e ++ subtermsOfTerms rest

/-- The subterms of the conditions of cases. -/
def subtermsOfCases : List (Expr × Json) → List Expr
  | [] => []
  | (e, _) :: rest => subterms e ++ subtermsOfCases rest

end

theorem self_mem_subterms (e : Expr) : e ∈ e.subterms := by
  cases e <;> simp [subterms]

/-! ### Literal outputs -/

/-- What an expression can hand back: some literals, and nothing else if `closed`. -/
structure Outputs where
  literals : List Json
  closed : Bool

/-- The literals that the expression can hand back. It is not closed if it can hand back what it
reads from the frame or gets from a combiner. -/
def outputs : Expr → Outputs
  | .literal value => ⟨[value], true⟩
  | .map _ table default => ⟨table.map (·.2) ++ default.toList, true⟩
  | .firstMatch cases default => ⟨cases.map (·.2) ++ default.toList, true⟩
  | .bitfield _ _ _ default => ⟨[.number .zero, .number .one] ++ default.toList, true⟩
  | .all _ | .any _ | .not _ | .recent .. | .compare .. => ⟨[.bool true, .bool false], true⟩
  | .path _ default | .event _ _ _ default => ⟨default.toList, false⟩
  | .combine .. => ⟨[], false⟩

/-! ### Writing -/

/-- The field of an option that is there. -/
def optionField (name : String) (write : α → Json) : Option α → List (String × Json)
  | some a => [(name, write a)]
  | none => []

/-- The value of a reference to a bit. -/
def bitJson : BitRef → Json
  | .index i => Json.ofNat i
  | .name s => .string s

/-- The fields of a default. -/
def defaultField (default : Option Json) : List (String × Json) := optionField "default" id default

/-- The value of an operation with its fields. -/
def operation (kind : String) (fields : List (String × Json)) : Json :=
  .object (("op", .string kind) :: fields)

mutual

/-- The value that documents write for an expression. Options that are not there are left out. -/
def toJson : Expr → Json
  | .path p default => operation "path" (("path", .string p) :: defaultField default)
  | .bitfield p group bit default =>
    operation "bitfield" (optionField "path" .string p ++ optionField "field_ref" .string group ++
      ("bit", bitJson bit) :: defaultField default)
  | .map input table default =>
    operation "map" (("from", toJson input) :: ("map", .object table) :: defaultField default)
  | .event name field category default =>
    operation "journal_event" (("event", .string name) :: (optionField "field" .string field ++
      optionField "category" .string category ++ defaultField default))
  | .firstMatch cases default =>
    operation "first_match" (("cases", .array (casesToJson cases)) :: defaultField default)
  | .all terms => operation "and" [("terms", .array (termsToJson terms))]
  | .any terms => operation "or" [("terms", .array (termsToJson terms))]
  | .not term => operation "not" [("term", toJson term)]
  | .recent name within =>
    operation "recent" [("event", .string name), ("within_seconds", Json.ofExtended within)]
  | .compare input c value =>
    operation "compare" [("from", toJson input), ("cmp", .string c.name), ("value", value)]
  | .literal value => operation "literal" [("value", value)]
  | .combine combiner inputs =>
    operation "combine" [("combiner", .string combiner), ("inputs", .array (termsToJson inputs))]

/-- The values of expressions in a row. -/
def termsToJson : List Expr → List Json
  | [] => []
  | e :: rest => toJson e :: termsToJson rest

/-- The values of cases. -/
def casesToJson : List (Expr × Json) → List Json
  | [] => []
  | (e, v) :: rest => .object [("when", toJson e), ("value", v)] :: casesToJson rest

end

end Expr

end Telltale
