import Telltale.Config
import Telltale.Yaml.Node
import Telltale.Yaml.Spelling

/-!
# Configuration documents

A configuration document is one record; what it leaves out has the value of the default
configuration.

* `Config.ofText?` reads a document, and `Config.text` writes one.
-/

namespace Telltale.Config

open Yaml (Node)

-- the powers of the core library, whatever else is in scope
attribute [local instance (2000)] instPowNat

/-- The configuration of a part of a document. -/
def ofNode? (t : Node) : Option Config := do
  let fields ←
    t.record? ["version", "catalog", "rules", "recency_window_seconds", "default_actor"] false
  let version ← Node.fieldOr? fields "version" default.version (Node.natBelow? (2 ^ (32 : Nat)))
  let catalog ← Node.optionalField? fields "catalog" Node.text?
  let rules ← Node.fieldOr? fields "rules" default.rules Node.text?
  let windowSeconds ←
    Node.fieldOr? fields "recency_window_seconds" default.windowSeconds
      (Node.natBelow? (2 ^ (64 : Nat)))
  let defaultActor ← Node.fieldOr? fields "default_actor" default.defaultActor Node.text?
  some ⟨version, catalog, rules, windowSeconds, defaultActor⟩

/-- The configuration of a text. -/
def ofText? (s : String) : Option Config := (Node.ofText? s).bind ofNode?

/-- The document of a configuration. -/
def text (c : Config) : String :=
  let catalog :=
    match c.catalog with
    | some path => Yaml.fieldLine "catalog" path
    | none => ""
  let texts := c.catalog.toList ++ [c.rules, c.defaultActor]
  Yaml.countLine "version" c.version ++ catalog ++ Yaml.fieldLine "rules" c.rules ++
    Yaml.countLine "recency_window_seconds" c.windowSeconds ++
    Yaml.fieldLine "default_actor" c.defaultActor ++ Yaml.documentEnd texts

end Telltale.Config
