import Telltale.Number
import Telltale.Table

/-!
# Values

The dynamic values of frames, external documents, signals and rules, and how they are read by
expressions and conditions alike.

* `Json.truthy` is truth, where an absent value counts as null.
* `Json.key?` is the text under which a value is looked up in a table.
* `Json.flagWord?` reads a value as a word of flags, and `bit` takes one of them.
* `Json.strictEq` is equality in which numbers keep their kinds; `Json.looseEq` compares two numbers
  by value and everything else strictly.
-/

namespace Telltale

/-- A value. The fields of an object are in the order of their names, each name once. -/
inductive Json where
  | null
  | bool (b : Bool)
  | number (n : Number)
  | string (s : String)
  | array (items : List Json)
  | object (fields : List (String × Json))

namespace Json

instance : Inhabited Json := ⟨.null⟩

/-! ### Building and taking apart -/

/-- An object of the given pairs; of two pairs with one name the later one stays. -/
def ofPairs (pairs : List (String × Json)) : Json := .object (Table.ofPairs pairs)

/-- The value of a natural number that is known to be small. -/
def ofNat (n : Nat) : Json := (Number.ofInt? n).elim .null .number

/-- The double of a real, or null if it is not finite. -/
def ofExtended (x : Extended) : Json :=
  match Number.ofExtended? x with
  | some n => .number n
  | none => .null

/-- Whether the value is null. -/
def isNull : Json → Bool
  | .null => true
  | _ => false

/-- The value, unless it is null. -/
def nonNull? (v : Json) : Option Json := if v.isNull then none else some v

/-- The number, if the value is one. -/
def number? : Json → Option Number
  | .number n => some n
  | _ => none

/-- The text, if the value is a string. -/
def string? : Json → Option String
  | .string s => some s
  | _ => none

/-- The items, if the value is an array. -/
def array? : Json → Option (List Json)
  | .array items => some items
  | _ => none

/-- The fields, if the value is an object. -/
def object? : Json → Option (Table Json)
  | .object fields => some fields
  | _ => none

/-- The field of an object. -/
def field? (v : Json) (name : String) : Option Json := v.object?.bind (Table.get? · name)

/-- Whether the value is a number. -/
def isNumber (v : Json) : Bool := v.number?.isSome

/-! ### Readings -/

/-- Truth of a value that may be absent: null, false, zero and everything empty are false. -/
def truthy : Option Json → Bool
  | none => false
  | some .null => false
  | some (.bool b) => b
  | some (.number n) => !n.toDouble.isZero
  | some (.string s) => s ≠ ""
  | some (.array items) => !items.isEmpty
  | some (.object fields) => !fields.isEmpty

/-- The text under which a value is looked up in a table. Null, arrays and objects have none. -/
def key? : Json → Option String
  | .string s => some s
  | .bool b => some (if b then "true" else "false")
  | .number n => some n.key
  | _ => none

/-- The value as a word of flags, if it is a number that stands for one. -/
def flagWord? : Json → Option (BitVec 64)
  | .number n => n.flagWord?
  | _ => none

/-! ### Equality -/

mutual

/-- Equality in which an integer differs from a double and the two zeros of doubles are equal. -/
def strictEq : Json → Json → Bool
  | .null, .null => true
  | .bool a, .bool b => a == b
  | .number a, .number b => a.sameKindAndValue b
  | .string a, .string b => a == b
  | .array as, .array bs => strictEqItems as bs
  | .object as, .object bs => strictEqFields as bs
  | _, _ => false

/-- Strict equality item by item. -/
def strictEqItems : List Json → List Json → Bool
  | [], [] => true
  | a :: as, b :: bs => strictEq a b && strictEqItems as bs
  | _, _ => false

/-- Strict equality field by field. -/
def strictEqFields : List (String × Json) → List (String × Json) → Bool
  | [], [] => true
  | (m, a) :: as, (n, b) :: bs => m == n && strictEq a b && strictEqFields as bs
  | _, _ => false

end

/-- Equality in which two numbers are compared by their values and everything else strictly. -/
def looseEq : Json → Json → Bool
  | .number a, .number b => a.sameValue b
  | a, b => strictEq a b

/-- Whether some member of a list is loosely equal to the value. -/
def memberOf (v : Json) (set : List Json) : Bool := set.any (looseEq · v)

end Json

/-- Flag number `i` of a word, as zero or one. -/
def bit (word : BitVec 64) (i : Nat) : Nat := (word.getLsbD i).toNat

end Telltale
