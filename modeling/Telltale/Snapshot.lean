import Telltale.Expr.Eval
import Telltale.Json.Text
import Telltale.Signal

/-!
# Snapshots

A snapshot holds the value of every signal of a catalog on one scene. Deriving one never fails: a
signal without a value, or with one that does not conform to its declaration, falls back to its
default, and the latter is told by a diagnostic.

* `Signal.read` is what comes of one signal.
* `Deriver.derive` reads all signals of a catalog, `Deriver.deriveOne?` one of them.
-/

namespace Telltale

/-! ### Diagnostics -/

/-- A value that a signal could not take. -/
inductive Diagnostic where
  | undeclared (signal : String) (value : Json)
  | wrongType (signal : String) (expected : SignalType) (value : Json)

namespace Diagnostic

/-- The wording of a diagnostic. -/
def message : Diagnostic → String
  | .undeclared signal value =>
    "signal '" ++ signal ++ "' derived undeclared value " ++ value.compact
  | .wrongType signal expected value =>
    "signal '" ++ signal ++ "' derived " ++ value.compact ++ ", expected " ++ expected.name

/-- The value that a diagnostic is written as. -/
def toJson : Diagnostic → Json
  | .undeclared signal value =>
    .object [("kind", .string "undeclared_enum_value"), ("signal", .string signal),
      ("value", value)]
  | .wrongType signal expected value =>
    .object [("kind", .string "wrong_type"), ("signal", .string signal),
      ("expected", .string expected.name), ("value", value)]

end Diagnostic

/-! ### One signal -/

/-- What comes of a signal on a scene: a value, nothing, or a value that it cannot take. -/
inductive Reading where
  | derived (value : Json)
  | absent
  | refused (diagnostic : Diagnostic)

/-- The value, if there is one. -/
def Reading.value? : Reading → Option Json
  | .derived value => some value
  | _ => none

/-- The diagnostic, if the value was refused. -/
def Reading.diagnostic? : Reading → Option Diagnostic
  | .refused d => some d
  | _ => none

/-- What holding a computed value against the declaration comes to. -/
def Signal.accept (s : Signal) (raw : Json) : Reading :=
  match s.conform raw with
  | .accepted value => .derived value
  | .undeclared value => .refused (.undeclared s.id value)
  | .wrongType value => .refused (.wrongType s.id s.type value)

/-- What comes of a signal on a scene. -/
def Signal.read (v : Vocabulary) (cs : Combiners) (scene : Scene) (s : Signal) : Reading :=
  match s.expr.eval v cs scene with
  | some raw => s.accept raw
  | none => .absent

/-! ### Snapshots -/

/-- The value of one signal, and whether it is the signal's default. -/
structure Entry where
  id : String
  value : Json
  isFallback : Bool

/-- The values of signals, in the order of the catalog. -/
abbrev Snapshot := List Entry

namespace Snapshot

/-- The entry of a signal. -/
def entry? (s : Snapshot) (id : String) : Option Entry := s.find? (·.id == id)

/-- The value of a signal. -/
def value? (s : Snapshot) (id : String) : Option Json := (s.entry? id).map (·.value)

/-- The value of a signal, unless it is a default. -/
def derived? (s : Snapshot) (id : String) : Option Json :=
  ((s.entry? id).filter (!·.isFallback)).map (·.value)

/-- Whether the value of a signal is a default. -/
def isFallback (s : Snapshot) (id : String) : Bool := (s.entry? id).any (·.isFallback)

/-- The value that a snapshot is written as, in the order of the catalog. -/
def toJson (s : Snapshot) : Json := .object (s.map fun e => (e.id, e.value))

end Snapshot

/-- The entry that a reading of a signal makes. -/
def Signal.entry (s : Signal) (r : Reading) : Entry :=
  match r.value? with
  | some value => ⟨s.id, value, false⟩
  | none => ⟨s.id, s.defaultValue, true⟩

/-- A snapshot with what was recovered from. -/
structure Derived where
  snapshot : Snapshot
  diagnostics : List Diagnostic

/-! ### Catalogs with combiners -/

/-- A catalog and the combiners that its expressions refer to. -/
structure Deriver where
  catalog : Catalog
  combiners : Combiners

/-- A combiner that a signal refers to and that is not registered. -/
structure MissingCombiner where
  signal : String
  combiner : String

/-- The wording of a missing combiner. -/
def MissingCombiner.message (m : MissingCombiner) : String :=
  "signal '" ++ m.signal ++ "' uses combiner '" ++ m.combiner ++
    "' but no such combiner is registered"

/-- The first combiner that is not registered. -/
def Catalog.missingCombiner? (c : Catalog) (cs : Combiners) : Option MissingCombiner :=
  c.subterms.findSome? fun (id, e) =>
    (Catalog.combinerOf? e).bind fun name => if (cs name).isNone then some ⟨id, name⟩ else none

namespace Deriver

/-- A catalog with combiners, all of which have to be registered. -/
def build (c : Catalog) (cs : Combiners) : Except MissingCombiner Deriver :=
  match c.missingCombiner? cs with
  | some m => .error m
  | none => .ok ⟨c, cs⟩

/-- What comes of a signal on a scene. -/
def read (d : Deriver) (scene : Scene) (s : Signal) : Reading :=
  s.read d.catalog.vocabulary d.combiners scene

/-- The values of all signals on a scene. -/
def derive (d : Deriver) (scene : Scene) : Derived :=
  let readings := d.catalog.signals.map fun s => (s, d.read scene s)
  ⟨readings.map fun (s, r) => s.entry r, readings.filterMap fun (_, r) => r.diagnostic?⟩

/-- The value of one signal, if the catalog has it. -/
def deriveOne? (d : Deriver) (scene : Scene) (id : String) : Option Json :=
  (d.catalog.get? id).map fun s => ((d.read scene s).value?).getD s.defaultValue

end Deriver

end Telltale
