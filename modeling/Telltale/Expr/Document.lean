import Telltale.Expr
import Telltale.Datum

/-!
# Reading expressions

An expression is a mapping with the name of its operation under `op`, or a list that begins with
that name and goes on with the fields in order. Expressions are read ahead as data: their texts have
to be strings and the keys of their tables too.
-/

namespace Telltale.Expr

/-- The operations, in order. -/
def kinds : List String :=
  ["path", "bitfield", "map", "journal_event", "first_match", "and", "or", "not", "recent",
   "compare", "literal", "combine"]

/-- The fields of an operation, in order. -/
def fieldNames : String → List String
  | "path" => ["path", "default"]
  | "bitfield" => ["path", "field_ref", "bit", "default"]
  | "map" => ["from", "map", "default"]
  | "journal_event" => ["event", "field", "category", "default"]
  | "first_match" => ["cases", "default"]
  | "and" | "or" => ["terms"]
  | "not" => ["term"]
  | "recent" => ["event", "within_seconds"]
  | "compare" => ["from", "cmp", "value"]
  | "literal" => ["value"]
  | "combine" => ["combiner", "inputs"]
  | _ => []

/-- A reference to a bit: an index that fits in a byte, or a name. -/
def bitOf? (d : Datum) : Option BitRef :=
  match d.natBelow? 256 with
  | some i => some (.index i)
  | none => d.string?.map .name

/-- A case of a first match, where `read` reads its condition. -/
def caseOf? (read : Datum → Option Expr) (d : Datum) : Option (Expr × Json) := do
  let r ← d.record? ["when", "value"] false
  let condition ← r.field? "when" read
  let value ← r.field? "value" Datum.toJson?
  some (condition, value)

/-- The expression of an operation and its fields, where `read` reads the expressions inside. -/
def ofFields? (read : Datum → Option Expr) (kind : String) (r : Record) : Option Expr := do
  let text := Datum.string?
  let default ← r.optional? "default" Datum.toJson?
  match kind with
  | "path" => some (.path (← r.field? "path" text) default)
  | "bitfield" =>
    let path ← r.optional? "path" text
    let group ← r.optional? "field_ref" text
    some (.bitfield path group (← r.field? "bit" bitOf?) default)
  | "map" =>
    let input ← r.field? "from" read
    some (.map input (← r.field? "map" (Datum.table? Datum.toJson?)) default)
  | "journal_event" =>
    let name ← r.field? "event" text
    let field ← r.optional? "field" text
    some (.event name field (← r.optional? "category" text) default)
  | "first_match" => some (.firstMatch (← r.field? "cases" (Datum.listOf? (caseOf? read))) default)
  | "and" => some (.all (← r.field? "terms" (Datum.listOf? read)))
  | "or" => some (.any (← r.field? "terms" (Datum.listOf? read)))
  | "not" => some (.not (← r.field? "term" read))
  | "recent" =>
    let event ← r.field? "event" text
    some (.recent event (← r.field? "within_seconds" Datum.real?))
  | "compare" =>
    let input ← r.field? "from" read
    let comparison ← r.field? "cmp" (Datum.choice? Comparison.ofName? true)
    some (.compare input comparison (← r.field? "value" Datum.toJson?))
  | "literal" => some (.literal (← r.field? "value" Datum.toJson?))
  | "combine" =>
    let combiner ← r.field? "combiner" text
    some (.combine combiner (← r.field? "inputs" (Datum.listOf? read)))
  | _ => none

/-- The expression of a datum, with expressions nested at most `depth` deep. An expression inside
another may give its operation by position. -/
def read? (inner : Bool) : Nat → Datum → Option Expr
  | 0, _ => none
  | depth + 1, d => do
    let (tag, rest) ← d.tagged? "op"
    let kind ← tag.tagName? kinds inner
    let r ← rest.record? (fieldNames kind) false
    ofFields? (read? true depth) kind r

/-- The expression of a datum, all parts of which have to be readable. -/
def ofDatum? (d : Datum) : Option Expr := if d.isReadable then read? false d.depth d else none

end Telltale.Expr
