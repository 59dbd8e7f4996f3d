import Telltale.Yaml.Resolve

/-!
# YAML documents

Trees with their aliases replaced by what they stand for, and how they are read as records, tables
and values. A collection inside 128 others cannot be read, and an alias does not count as a level.

* `Node.ofText?` is the document of a text.
* `Node.datum` types every scalar and every key, as records that are read ahead see them.
* `Node.record?`, `Node.table?` and the readings of scalars are for records that are read directly;
  there every scalar is a text where a text is wanted.
-/

namespace Telltale.Yaml

/-- A part of a document without aliases. -/
inductive Node where
  | scalar (s : Scalar)
  | sequence (tag : Option String) (items : List Node)
  | mapping (tag : Option String) (entries : List (Node × Node))
  | unreadable

instance : Inhabited Node := ⟨.unreadable⟩

/-- The greatest nesting of collections that is read. -/
def maxDepth : Nat := 128

/-- The part that an alias stands for; other parts stand for themselves. -/
def Tree.target (anchored : Nat → Option Tree) : Tree → Tree
  | .alias number => (anchored number).getD .unreadable
  | t => t

/-- Replaces aliases, down to a depth. -/
def Tree.expand (anchored : Nat → Option Tree) (depth : Nat) (t : Tree) : Node :=
  match depth, t.target anchored with
  | _, .scalar s => .scalar s
  | n + 1, .sequence tag items => .sequence tag (items.map (expand anchored n))
  | n + 1, .mapping tag entries =>
    .mapping tag (entries.map fun e => (expand anchored n e.1, expand anchored n e.2))
  | _, _ => .unreadable

namespace Node

/-- The document of a text. -/
def ofText? (s : String) : Option Node :=
  (Tree.ofText? s).map fun (t, anchored) => t.expand anchored maxDepth

/-! ### As data and values -/

mutual

/-- The datum of a part. Parts with a local tag cannot be read. -/
def datum : Node → Datum
  | .scalar s => s.datum
  | .sequence tag items => if (localTag? tag).isSome then .unreadable else .list (dataOf items)
  | .mapping tag entries =>
    if (localTag? tag).isSome then .unreadable else .mapping (dataOfEntries entries)
  | .unreadable => .unreadable

/-- The data of the items of a sequence. -/
def dataOf : List Node → List Datum
  | [] => []
  | t :: rest => datum t :: dataOf rest

/-- The data of the entries of a mapping. -/
def dataOfEntries : List (Node × Node) → List (Datum × Datum)
  | [] => []
  | (key, t) :: rest => (datum key, datum t) :: dataOfEntries rest

end

/-- The text of a scalar of any type. -/
def text? : Node → Option String
  | .scalar s => some s.text
  | _ => none

mutual

/-- The value of a part. A key is the text of its scalar, and of two entries with one key the later
one stays. -/
def json? : Node → Option Json
  | .scalar s => s.datum.toJson?
  | .sequence tag items =>
    if (localTag? tag).isSome then none else (jsonItems? items).map .array
  | .mapping tag entries =>
    if (localTag? tag).isSome then none else (jsonFields? entries).map Json.ofPairs
  | .unreadable => none

/-- The values of the items of a sequence. -/
def jsonItems? : List Node → Option (List Json)
  | [] => some []
  | t :: rest => do
    let v ← json? t
    let vs ← jsonItems? rest
    some (v :: vs)

/-- The values of the entries of a mapping. -/
def jsonFields? : List (Node × Node) → Option (List (String × Json))
  | [] => some []
  | (key, t) :: rest => do
    let name ← text? key
    let v ← json? t
    let vs ← jsonFields? rest
    some ((name, v) :: vs)

end

/-! ### Direct readings -/

/-- Whether the part is the empty plain scalar, which stands for no items, entries or fields. -/
def isEmpty : Node → Bool
  | .scalar s => s.isEmptyPlain
  | _ => false

/-- A natural number below a bound. -/
def natBelow? (bound : Nat) : Node → Option Nat
  | .scalar s => s.natBelow? bound
  | _ => none

/-- The items of a sequence. -/
def items? : Node → Option (List Node)
  | .sequence _ items => some items
  | t => if t.isEmpty then some [] else none

/-- A sequence whose items are all read alike. -/
def listOf? (read : Node → Option α) (t : Node) : Option (List α) := t.items?.bind (·.mapM read)

/-- A part that may be left out or null. -/
def optional? (read : Node → Option α) : Node → Option (Option α)
  | .scalar s =>
    match s.isAbsent? with
    | none => none
    | some true => some none
    | some false => (read (.scalar s)).map some
  | t => (read t).map some

/-- A table; of two entries with one name the later one stays. -/
def table? (read : Node → Option α) : Node → Option (Table α)
  | .mapping _ entries =>
    (entries.mapM fun (key, t) => do
      let name ← text? key
      let v ← read t
      some (name, v)).map Table.ofPairs
  | t => if t.isEmpty then some [] else none

/-- One of a list of alternatives, from its name, or from its name as a local tag of nothing. -/
def choice? (ofName? : String → Option α) : Node → Option α
  | .scalar s =>
    match localTag? s.tag with
    | some name =>
      if s.style == .plain && (s.text == "" || isNullText s.text) then ofName? name else none
    | none => ofName? s.text
  | _ => none

/-! ### Records -/

/-- The fields among the entries of a mapping. A field given twice is refused; a key that is no
field is passed over, or refused in a closed record. -/
def fields? (names : List String) (closed : Bool) :
    List (Node × Node) → Option (List (String × Node))
  | [] => some []
  | (key, t) :: rest => do
    let name ← text? key
    let others ← fields? names closed rest
    if names.contains name then
      if (others.lookup name).isSome then none else some ((name, t) :: others)
    else if closed then none
    else some others

/-- The fields of a record, from a mapping. -/
def record? (names : List String) (closed : Bool) : Node → Option (List (String × Node))
  | .mapping _ entries => fields? names closed entries
  | t => if t.isEmpty then some [] else none

/-- A field that has to be there. -/
def field? (fields : List (String × Node)) (name : String) (read : Node → Option α) : Option α :=
  (fields.lookup name).bind read

/-- A field with a value for when it is not there. -/
def fieldOr? (fields : List (String × Node)) (name : String) (default : α)
    (read : Node → Option α) : Option α :=
  match fields.lookup name with
  | none => some default
  | some t => read t

/-- A field that may be missing or null. -/
def optionalField? (fields : List (String × Node)) (name : String) (read : Node → Option α) :
    Option (Option α) :=
  fieldOr? fields name none (optional? read)

end Node

end Telltale.Yaml
