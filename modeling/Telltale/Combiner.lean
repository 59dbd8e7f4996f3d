import Telltale.Json

/-!
# Combiners

A combiner turns the results of several expressions into one. Expressions refer to combiners by the
names under which they are registered.
-/

namespace Telltale

/-- A function for the results of expressions, some of which may be absent. -/
abbrev Combiner := List (Option Json) → Option Json

/-- The registered combiners, by name. -/
abbrev Combiners := String → Option Combiner

namespace Combiner

/-- The number among the inputs that comes next in a sum. -/
def addend? (input : Option Json) : Option Double := (input.bind Json.number?).map Number.toDouble

/-- The sum of the inputs that are numbers, added up in order as doubles. A sum beyond every double
is null. -/
def sum : Combiner := fun inputs =>
  match (inputs.filterMap addend?).foldlM Double.add? Double.posZero with
  | some x => some (.number (.double x))
  | none => some .null

/-- The first input that is there. -/
def first : Combiner := fun inputs => inputs.findSome? fun input => input

/-- How many inputs are there. -/
def count : Combiner := fun inputs => some (Json.ofNat (inputs.countP Option.isSome))

/-- All inputs in an array, with null for those that are not there. -/
def list : Combiner := fun inputs => some (.array (inputs.map (·.getD .null)))

/-- Nothing, whatever the inputs are. -/
def nothing : Combiner := fun _ => none

end Combiner

namespace Combiners

/-- No combiner at all. -/
def absent : Combiners := fun _ => none

/-- The combiners that need nothing but their inputs. -/
def standard : Combiners
  | "sum" => some Combiner.sum
  | "first" => some Combiner.first
  | "count" => some Combiner.count
  | "list" => some Combiner.list
  | "none" => some Combiner.nothing
  | _ => none

end Combiners

end Telltale
