import Telltale.Catalog.Check
import Telltale.Expr.Document
import Telltale.Yaml.Node

/-!
# Catalog documents

A catalog document gives a version, flag groups, categories of events and signals; fields that it
does not know are passed over. Signals and groups are records that are read directly, their
expressions are read ahead.
-/

namespace Telltale

open Yaml (Node)

-- the powers of the core library, whatever else is in scope
attribute [local instance (2000)] instPowNat

/-- Why a document is refused: it is not of the expected structure, or its content has a fault. -/
inductive Refusal (ε : Type) where
  | malformed
  | fault (cause : ε)

/-- The wording of a refusal of a document. A cause is worded by `wording`; `unread` words a text
that is not of the expected structure. -/
def Refusal.message (document : String) (wording : ε → String) (unread : String) :
    Refusal ε → String
  | .malformed => "malformed " ++ document ++ " document: " ++ unread
  | .fault cause => "malformed " ++ document ++ " document: " ++ wording cause

namespace Catalog

/-- A declared value of a signal. -/
def enumValueOf? (t : Node) : Option EnumValue := do
  let fields ← t.record? ["value", "label"] false
  let value ← Node.field? fields "value" Node.json?
  let label ← Node.optionalField? fields "label" Node.text?
  some ⟨value, label⟩

/-- A flag group. -/
def groupOf? (t : Node) : Option FlagGroup := do
  let fields ← t.record? ["path", "bits"] false
  let path ← Node.field? fields "path" Node.text?
  let bits ← Node.fieldOr? fields "bits" [] (Node.table? (Node.natBelow? 256))
  some ⟨path, bits⟩

/-- A signal. -/
def signalOf? (t : Node) : Option Signal := do
  let fields ← t.record? ["id", "type", "values", "default", "description", "derive"] false
  let id ← Node.field? fields "id" Node.text?
  let type ← Node.field? fields "type" (Node.choice? SignalType.ofName?)
  let values ← Node.fieldOr? fields "values" [] (Node.listOf? enumValueOf?)
  let default ← Node.optionalField? fields "default" Node.json?
  let description ← Node.optionalField? fields "description" Node.text?
  let expr ← Node.field? fields "derive" fun t => Expr.ofDatum? t.datum
  some ⟨id, type, values, default, description, expr⟩

/-- A catalog, unchecked. -/
def ofNode? (t : Node) : Option Catalog := do
  let fields ← t.record? ["version", "flag_groups", "event_categories", "signals"] false
  let version ← Node.fieldOr? fields "version" 1 (Node.natBelow? (2 ^ (32 : Nat)))
  let groups ← Node.fieldOr? fields "flag_groups" [] (Node.table? groupOf?)
  let categories ←
    Node.fieldOr? fields "event_categories" [] (Node.table? (Node.listOf? Node.text?))
  let signals ← Node.field? fields "signals" (Node.listOf? signalOf?)
  some ⟨version, ⟨groups, categories⟩, signals⟩

/-- The catalog of a text. -/
def ofText (s : String) : Except (Refusal CatalogFault) Catalog :=
  match (Node.ofText? s).bind ofNode? with
  | none => .error .malformed
  | some c => c.check.mapError .fault

end Catalog

end Telltale
