import Telltale.Signal

/-!
# Catalogs

A catalog lists the signals in the order in which snapshots report them, with the vocabulary that
expressions refer to: flag groups, which name the bits of a word, and categories of events.

* `Vocabulary.resolveBit?` finds the word and the index that a reference to a bit means.
* `Catalog.get?` finds a signal by its identifier.
* `Catalog.eventNames`, `Catalog.combinerNames` and `Catalog.maxRecent` say what the expressions of
  a catalog refer to.
-/

namespace Telltale

/-- A word of flags at a path, and the names of its bits. -/
structure FlagGroup where
  path : String
  bits : Table Nat

/-- The groups and categories that expressions refer to by name. -/
structure Vocabulary where
  groups : Table FlagGroup
  categories : Table (List String)

/-- The greatest index of a bit in a word. -/
def maxBit : Nat := 63

namespace Vocabulary

/-- The group of a name. -/
def group? (v : Vocabulary) (name : String) : Option FlagGroup := Table.get? v.groups name

/-- The events of a category. -/
def category? (v : Vocabulary) (name : String) : Option (List String) :=
  Table.get? v.categories name

/-- The index that a reference to a bit means in a group. -/
def bitIndex? (g : FlagGroup) : BitRef → Option Nat
  | .index i => some i
  | .name s => Table.get? g.bits s

/-- The path and the index of a bit of a group. -/
def resolveBit? (v : Vocabulary) (group : String) (bit : BitRef) : Option (String × Nat) := do
  let g ← v.group? group
  let i ← bitIndex? g bit
  if i ≤ maxBit then some (g.path, i) else none

end Vocabulary

/-- A catalog. -/
structure Catalog where
  version : Nat
  vocabulary : Vocabulary
  signals : List Signal

namespace Catalog

/-- The signal of an identifier. -/
def get? (c : Catalog) (id : String) : Option Signal := c.signals.find? (·.id == id)

/-- Whether the catalog has a signal of an identifier. -/
def has (c : Catalog) (id : String) : Bool := c.signals.any (·.id == id)

/-- The identifiers, in order. -/
def ids (c : Catalog) : List String := c.signals.map (·.id)

/-- Every expression of every signal, with the identifier of the signal. -/
def subterms (c : Catalog) : List (String × Expr) :=
  c.signals.flatMap fun s => s.expr.subterms.map fun e => (s.id, e)

/-- The events that an expression names itself. -/
def eventsOf (v : Vocabulary) : Expr → List String
  | .recent event _ => [event]
  | .event name _ category _ =>
    if name = anyEvent then (category.bind v.category?).getD [] else [name]
  | _ => []

/-- Every event that the expressions name, themselves or through a category. -/
def eventNames (c : Catalog) : Names :=
  Names.ofList (c.subterms.flatMap fun (_, e) => eventsOf c.vocabulary e)

/-- The combiner that an expression names itself. -/
def combinerOf? : Expr → Option String
  | .combine name _ => some name
  | _ => none

/-- Every combiner that the expressions name. -/
def combinerNames (c : Catalog) : Names :=
  Names.ofList (c.subterms.filterMap fun (_, e) => combinerOf? e)

/-- The bound of a check for a recent event. -/
def boundOf? : Expr → Option Extended
  | .recent _ within => some within
  | _ => none

/-- The greater of two bounds. -/
def greater (a b : Extended) : Extended := if b.atMost a then a else b

/-- The greatest bound of the checks for recent events. -/
def maxRecent (c : Catalog) : Option Extended :=
  match c.subterms.filterMap fun (_, e) => boundOf? e with
  | [] => none
  | b :: rest => some (rest.foldl greater b)

end Catalog

end Telltale
