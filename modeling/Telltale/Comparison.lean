import Telltale.Json

/-!
# Comparisons

The six comparisons of conditions and expressions. Equality and its negation are always decided; an
ordering is decided only between numbers.
-/

namespace Telltale

/-- A comparison of two values. -/
inductive Comparison where
  | eq
  | ne
  | gt
  | gte
  | lt
  | lte
  deriving DecidableEq

namespace Comparison

/-- Every comparison, in the order of declaration. -/
def all : List Comparison := [.eq, .ne, .gt, .gte, .lt, .lte]

/-- The name that documents use. -/
def name : Comparison → String
  | .eq => "eq"
  | .ne => "ne"
  | .gt => "gt"
  | .gte => "gte"
  | .lt => "lt"
  | .lte => "lte"

/-- The comparison of a name. -/
def ofName? (s : String) : Option Comparison := all.find? (·.name == s)

/-- Whether the comparison is about order and not about equality. -/
def isOrdering : Comparison → Bool
  | .eq | .ne => false
  | .gt | .gte | .lt | .lte => true

/-- The order of two values, if both are numbers. -/
def order? (a b : Json) : Option Ordering :=
  match a, b with
  | .number m, .number n => some (m.compareTo n)
  | _, _ => none

/-- The outcome, if the values can be compared this way. -/
def apply (c : Comparison) (a b : Json) : Option Bool :=
  match c with
  | .eq => some (a.looseEq b)
  | .ne => some (!a.looseEq b)
  | .gt => (order? a b).map (· == .gt)
  | .gte => (order? a b).map (· != .lt)
  | .lt => (order? a b).map (· == .lt)
  | .lte => (order? a b).map (· != .gt)

end Comparison

end Telltale
