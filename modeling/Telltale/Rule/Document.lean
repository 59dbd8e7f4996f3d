import Telltale.Catalog.Document
import Telltale.Rule.Check

/-!
# Rules documents

A rules document lists entries, none of which may have a key that it does not know. Actions and the
events of a filter are read ahead.

* `Rule.listOfText` is the list of rules of a text.
* `RuleSet` is a list of rules with the generation that tells it from every other one; `Loader.load`
  counts generations.
-/

namespace Telltale

open Yaml (Node)

/-! ### Entries -/

/-- The kinds of actions. -/
def Action.kinds : List String := ["set_flag", "clear_flag", "log", "emit"]

/-- The action of a kind and its fields. -/
def Action.ofFields? (kind : String) (fields : Datum) : Option Action :=
  match kind with
  | "set_flag" => do
    let r ← fields.record? ["token"] false
    some (.setFlag (← r.field? "token" Datum.string?))
  | "clear_flag" => do
    let r ← fields.record? ["token"] false
    some (.clearFlag (← r.field? "token" Datum.string?))
  | "log" => do
    let r ← fields.record? ["message"] false
    some (.log (← r.field? "message" Datum.string?))
  | "emit" => do
    let r ← fields.record? ["name", "payload"] false
    let name ← r.field? "name" Datum.string?
    some (.emit name (← r.fieldOr? "payload" .null Datum.toJson?))
  | _ => none

/-- The action of a datum, all parts of which have to be readable. -/
def Action.ofDatum? (d : Datum) : Option Action := do
  if !d.isReadable then none
  let (tag, fields) ← d.tagged? "type"
  Action.ofFields? (← tag.tagName? kinds false) fields

namespace LeafEntry

/-- The comparison of an entry under its own key. -/
def comparisonOf? (fields : List (String × Node)) (comparison : Comparison) :
    Option (Option (Comparison × Json)) := do
  let value ← Node.optionalField? fields comparison.name Node.json?
  some (value.map fun v => (comparison, v))

/-- The keys of an entry that describe a leaf. -/
def ofFields? (fields : List (String × Node)) : Option LeafEntry := do
  let texts := Node.listOf? Node.text?
  let signal ← Node.optionalField? fields "signal" Node.text?
  let field ← Node.optionalField? fields "field" Node.text?
  let flags ← Node.optionalField? fields "flags" Node.text?
  let comparisons ← Comparison.all.mapM (comparisonOf? fields)
  let oneOf ← Node.optionalField? fields "in" (Node.listOf? Node.json?)
  let allOf ← Node.optionalField? fields "all_of" texts
  let anyOf ← Node.optionalField? fields "any_of" texts
  let noneOf ← Node.optionalField? fields "none_of" texts
  some ⟨signal, field, flags, comparisons.filterMap (fun c => c), oneOf, allOf, anyOf, noneOf⟩

end LeafEntry

namespace ConditionEntry

/-- The keys of an entry of a condition, in order. -/
def fieldNames : List String :=
  ["signal", "field", "flags", "eq", "ne", "in", "gt", "gte", "lt", "lte", "all_of", "any_of",
   "none_of", "all", "any"]

/-- The entry of a part of a document, with entries nested at most `depth` deep. -/
def ofNode? : Nat → Node → Option ConditionEntry
  | 0, _ => none
  | depth + 1, t => do
    let fields ← t.record? fieldNames true
    let leaf ← LeafEntry.ofFields? fields
    let all ← Node.optionalField? fields "all" (Node.listOf? (ofNode? depth))
    let any ← Node.optionalField? fields "any" (Node.listOf? (ofNode? depth))
    some (.mk leaf all any)

/-- A group of entries. -/
def groupOf? : Node → Option (List ConditionEntry) := Node.listOf? (ofNode? Yaml.maxDepth)

end ConditionEntry

namespace RuleEntry

/-- The events of a filter: one name or a list of them. -/
def eventsOf? (d : Datum) : Option (List String) :=
  match d with
  | .string s => some [s]
  | d => d.listOf? Datum.string?

/-- The entry of a part of a document. -/
def ofNode? (t : Node) : Option RuleEntry := do
  let fields ← t.record? ["id", "title", "when", "then", "else"] true
  let id ← Node.optionalField? fields "id" Node.text?
  let title ← Node.fieldOr? fields "title" "" Node.text?
  let condition ← Node.field? fields "when" (Node.record? ["source", "event", "all", "any"] true)
  let source ← Node.optionalField? condition "source" (Node.choice? Source.ofName?)
  let events ← Node.optionalField? condition "event" fun t => eventsOf? t.datum
  let all ← Node.optionalField? condition "all" ConditionEntry.groupOf?
  let any ← Node.optionalField? condition "any" ConditionEntry.groupOf?
  let actions := Node.listOf? fun t => Action.ofDatum? t.datum
  let onRise ← Node.fieldOr? fields "then" [] actions
  let onFall ← Node.fieldOr? fields "else" [] actions
  some ⟨id, title, source, events.getD [], all, any, onRise, onFall⟩

/-- The entries of a document. -/
def listOfNode? (t : Node) : Option (List RuleEntry) := do
  let fields ← t.record? ["rules"] false
  Node.fieldOr? fields "rules" [] (Node.listOf? ofNode?)

end RuleEntry

/-! ### Documents -/

/-- The rules of a text. -/
def Rule.listOfText (c : Catalog) (s : String) : Except (Refusal RulesFault) (List Rule) :=
  match (Node.ofText? s).bind RuleEntry.listOfNode? with
  | none => .error .malformed
  | some entries => (RuleEntry.compileEach c entries).mapError .fault

/-- The rules of one document, with the number of the loading that brought them. -/
structure RuleSet where
  generation : Nat
  rules : List Rule

/-- The rule of an identifier. -/
def RuleSet.get? (s : RuleSet) (id : String) : Option Rule := s.rules.find? (·.id == id)

/-- Counts the rule sets that are loaded. -/
structure Loader where
  next : Nat

namespace Loader

/-- No rule set loaded yet. -/
def start : Loader := ⟨1⟩

/-- Loads the rules of a text. Only a rule set that is loaded takes a number. -/
def load (l : Loader) (c : Catalog) (s : String) :
    Except (Refusal RulesFault) (RuleSet × Loader) :=
  (Rule.listOfText c s).map fun rules => (⟨l.next, rules⟩, ⟨l.next + 1⟩)

end Loader

end Telltale
